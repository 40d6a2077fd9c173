import BlockGraph.Proofs.Aggregator.Steps
import BlockGraph.Proofs.Totals

/-!
# Work in the background

What one step of work does, said once, whatever the feed is; and that work comes to an end. Each step
brings an item nearer to the graph or ends a pump, so there is a bound on the number of steps that are
left, and an aggregator that settles has nothing left to do.

* `Worked`, `step_worked` — the things that a step can do.
* `Manned` — pumps go by their generations.
* `effort`, `Worked.effort` — how much is left to do; every step makes it less.
* `settle_done` — nothing is left to do; `settle_stepUpTo` — it does not matter in how many goes.
-/

namespace BlockGraph

namespace Lines

variable {ls : Lines} {n : Nat}

theorem load_insert {item : FeedItem} {queue : List FeedItem} {isOpen : Bool}
    (found : ls.lines.get? n = some ⟨item :: queue, isOpen⟩) (m : Nat) :
    let rest : Lines := { ls with lines := ls.lines.insert n ⟨queue, isOpen⟩ }
    rest.load m ≤ ls.load m ∧ rest.load n + 1 = ls.load n := by
  have here : ls.load n = queue.length + 1 := by simp [load, found]
  have after (k : Nat) : ({ ls with lines := ls.lines.insert n ⟨queue, isOpen⟩ } : Lines).load k =
      if k = n then queue.length else ls.load k := by
    rw [load, SortedMap.get?_insert]
    split <;> rfl
  dsimp only
  rw [after, after, if_pos rfl, here]
  refine ⟨?_, rfl⟩
  split
  next same =>
    rw [same, here]
    exact Nat.le_succ _
  next => exact Nat.le_refl _

/-- Nothing comes onto a line when it is read. -/
theorem load_take (ls : Lines) {n : Nat} {rest : Lines} {received : Received}
    (takes : ls.take n = (rest, received)) (m : Nat) : rest.load m ≤ ls.load m := by
  rcases ls.take_cases n with ⟨item, queue, isOpen, found, front⟩ | ⟨spent, _⟩ | ⟨waits, _⟩
  · obtain ⟨rfl, _⟩ := Prod.mk.inj (front.symm.trans takes)
    exact (load_insert found m).1
  · obtain ⟨rfl, _⟩ := Prod.mk.inj (spent.symm.trans takes)
    exact Nat.le_refl _
  · obtain ⟨rfl, _⟩ := Prod.mk.inj (waits.symm.trans takes)
    exact Nat.le_refl _

theorem load_release (ls : Lines) (n m : Nat) : (ls.release n).load m ≤ ls.load m := by
  rw [load, release, SortedMap.get?_erase]
  split
  · exact Nat.zero_le _
  · exact Nat.le_refl _

end Lines

/-- The pump with a header that it brings to the queue. -/
def Pump.brings (p : Pump) (header : Header) : Pump :=
  { p with holding := some (.header p.source p.generation header) }

/-- The pump with the news that its source is closed, which is the last that it brings. -/
def Pump.closes (p : Pump) (state : SourceState) : Pump :=
  { p with holding := some (.closed p.source p.generation state), isLast := true }

/-- The number of steps in which a pump gets rid of what it holds and closes its source. -/
def Pump.stage (p : Pump) : Nat :=
  -- An item of the line pays 3: taking it raises the stage by 2, which bringing it to the queue and
  -- performing it use up. The end of the line is free, so an idle pump keeps 4 back for it.
  match p.holding with
  | none => 4
  | some _ => if p.isLast then 2 else 6

/-- The number of steps that are left for a pump with so many items on its line. -/
def Pump.effort (lines : Lines) (p : Pump) : Nat := 3 * lines.load p.line + p.stage

theorem Pump.stage_le (p : Pump) : p.stage ≤ 6 := by
  unfold stage
  split
  · omega
  · split <;> omega

theorem Pump.effort_mono {lines fewer : Lines} (loads : ∀ n, fewer.load n ≤ lines.load n) (p : Pump) :
    p.effort fewer ≤ p.effort lines := by
  have load := loads p.line
  unfold effort
  omega

namespace Aggregator

variable {a b : Aggregator}

/-! ## The steps -/

/-- The aggregator after a pump has seen the next of its line. -/
def seen (a : Aggregator) (lines : Lines) (p : Pump) : Aggregator :=
  { a with feed := a.feed.withLines lines }.setPump p

/-- What one step of work can do. -/
inductive Worked (a : Aggregator) : Aggregator → Prop
  | performed (item : QueueItem) (queue : List QueueItem) (items : a.queue = item :: queue) :
      Worked a ({ a with queue }.perform item)
  /-- A pump is cancelled. -/
  | ended (p : Pump) (member : p ∈ a.pumps) : Worked a (a.endPump p)
  | passed (p : Pump) (member : p ∈ a.pumps) (item : QueueItem) (holds : p.holding = some item)
      (more : p.isLast = false) : Worked a ((a.push item).setPump { p with holding := none })
  /-- The last item goes on the queue, and the pump ends. -/
  | left (p : Pump) (member : p ∈ a.pumps) (item : QueueItem) (holds : p.holding = some item)
      (last : p.isLast = true) : Worked a ((a.push item).endPump p)
  | taken (p : Pump) (member : p ∈ a.pumps) (idle : p.holding = none) (lines : Lines) (header : Header)
      (takes : a.feed.lines.take p.line = (lines, .item (.ok header))) :
      Worked a (a.seen lines (p.brings header))
  /-- The line has ended or failed. -/
  | closing (p : Pump) (member : p ∈ a.pumps) (idle : p.holding = none) (state : SourceState)
      (lines : Lines) (received : Received) (takes : a.feed.lines.take p.line = (lines, received)) :
      Worked a (a.seen lines (p.closes state))

theorem enqueue_worked {p : Pump} (member : p ∈ a.pumps) {item : QueueItem}
    (holds : p.holding = some item) (stepped : a.enqueue p item = some b) : Worked a b := by
  unfold enqueue at stepped
  split at stepped
  · obtain rfl := Option.some.inj stepped
    split
    next last => exact .left p member item holds last
    next more => exact .passed p member item holds (by simpa using more)
  · cases stepped

theorem fetch_worked {p : Pump} (member : p ∈ a.pumps) (idle : p.holding = none)
    (stepped : a.fetch p = some b) : Worked a b := by
  unfold fetch at stepped
  obtain ⟨lines, received, takes⟩ : ∃ lines received, a.feed.lines.take p.line = (lines, received) :=
    ⟨_, _, rfl⟩
  rw [takes] at stepped
  cases received with
  | item item =>
    cases item with
    | ok header => exact Option.some.inj stepped ▸ .taken p member idle lines header takes
    | error e => exact Option.some.inj stepped ▸ .closing p member idle (.failed e.message) lines _ takes
  | ended => exact Option.some.inj stepped ▸ .closing p member idle .ended lines _ takes
  | pending => cases stepped

theorem pumpStep_worked {p : Pump} (member : p ∈ a.pumps) (stepped : a.pumpStep p = some b) :
    Worked a b := by
  unfold pumpStep at stepped
  split at stepped
  · exact Option.some.inj stepped ▸ .ended p member
  · unfold forward at stepped
    cases holds : p.holding with
    | some item =>
      rw [holds] at stepped
      exact enqueue_worked member holds stepped
    | none =>
      rw [holds] at stepped
      exact fetch_worked member holds stepped

theorem mutationStep_worked (stepped : a.mutationStep = some b) : Worked a b := by
  unfold mutationStep at stepped
  split at stepped
  · cases stepped
  · unfold performNext at stepped
    cases items : a.queue with
    | nil =>
      rw [items] at stepped
      cases stepped
    | cons item queue =>
      rw [items] at stepped
      exact Option.some.inj stepped ▸ .performed item queue items

theorem step_worked (stepped : a.step = some b) : Worked a b := by
  rcases Option.or_eq_some_iff.1 stepped with mutation | ⟨_, pumped⟩
  · exact mutationStep_worked mutation
  · obtain ⟨p, member, stepped⟩ := List.exists_of_findSome?_eq_some pumped
    exact pumpStep_worked member stepped

/-- Anything that every step keeps is kept by any number of steps. -/
theorem stepUpTo_keeps {P : Aggregator → Prop} (keeps : ∀ a b, P a → Worked a b → P b) (holds : P a)
    (n : Nat) : P (stepUpTo n a) := by
  induction n generalizing a with
  | zero => exact holds
  | succ n ih =>
    rw [stepUpTo]
    cases stepped : a.step with
    | none => exact holds
    | some b => exact ih (keeps a b holds (step_worked stepped))

/-! ## Items that are performed -/

/-- What an item does, apart from the registry and the status stream. -/
structure Performs (a : Aggregator) (item : QueueItem) (b : Aggregator) : Prop where
  feed : b.feed = a.feed
  pumps : b.pumps = a.pumps
  queue : b.queue = a.queue
  lastGeneration : b.lastGeneration = a.lastGeneration
  engine : b.engine = a.engine ∨ ∃ source generation header,
    item = .header source generation header ∧ b.engine = a.engine.applied source header

theorem perform_performs (a : Aggregator) (item : QueueItem) : Performs a item (a.perform item) := by
  cases item with
  | closed source generation state =>
    show Performs a _ (a.closeSource source generation state)
    rcases a.closeSource_cases source generation state with same | ⟨s, _, _, _, after⟩
    · rw [same]
      exact ⟨rfl, rfl, rfl, rfl, .inl rfl⟩
    · rw [after]
      exact ⟨rfl, rfl, rfl, rfl, .inl rfl⟩
  | header source generation header =>
    show Performs a _ (a.ingested source (some generation) header)
    cases takes : a.takes source (some generation) header with
    | true =>
      obtain ⟨s, _, _, _, after⟩ := ingested_taken takes
      rw [after]
      exact ⟨rfl, rfl, rfl, rfl, .inr ⟨source, generation, header, rfl, rfl⟩⟩
    | false =>
      rcases ingested_dropped takes with ⟨same, _⟩ | ⟨s, _, after⟩
      · rw [same]
        exact ⟨rfl, rfl, rfl, rfl, .inl rfl⟩
      · rw [after]
        exact ⟨rfl, rfl, rfl, rfl, .inl rfl⟩

/-! ## Pumps and their generations -/

/-- There is one pump of a generation at most, and no generation was given to a pump before its time. -/
structure Manned (a : Aggregator) : Prop where
  distinct : (a.pumps.map (·.generation)).Nodup
  known : ∀ p ∈ a.pumps, p.generation ≤ a.lastGeneration

namespace Manned

theorem congr (manned : a.Manned) (pumps : b.pumps = a.pumps)
    (grown : a.lastGeneration ≤ b.lastGeneration) : b.Manned := by
  refine ⟨pumps ▸ manned.distinct, fun p member => ?_⟩
  rw [pumps] at member
  exact Nat.le_trans (manned.known p member) grown

theorem endPump (manned : a.Manned) (p : Pump) : (a.endPump p).Manned where
  distinct := (List.filter_sublist.map _).nodup manned.distinct
  known q member := manned.known q (List.mem_filter.1 member).1

theorem setPump (manned : a.Manned) (p : Pump) : (a.setPump p).Manned := by
  have same : (a.setPump p).pumps.map (·.generation) = a.pumps.map (·.generation) := by
    rw [Aggregator.setPump, List.map_map]
    apply List.map_congr_left
    intro q _
    simp only [Function.comp_apply]
    split
    next same => exact same.symm
    next => rfl
  refine ⟨same ▸ manned.distinct, fun q member => ?_⟩
  have listed : q.generation ∈ a.pumps.map (·.generation) := same ▸ List.mem_map_of_mem member
  obtain ⟨r, there, generation⟩ := List.mem_map.1 listed
  exact generation ▸ manned.known r there

theorem worked (manned : a.Manned) (worked : Worked a b) : b.Manned := by
  cases worked with
  | performed item queue items =>
    have performs := perform_performs { a with queue } item
    exact manned.congr performs.pumps (Nat.le_of_eq performs.lastGeneration.symm)
  | ended p member => exact manned.endPump p
  | passed p member item holds more => exact (manned.congr (b := a.push item) rfl (Nat.le_refl _)).setPump _
  | left p member item holds last => exact (manned.congr (b := a.push item) rfl (Nat.le_refl _)).endPump p
  | taken p member idle lines header takes =>
    exact (manned.congr (b := { a with feed := a.feed.withLines lines }) rfl (Nat.le_refl _)).setPump _
  | closing p member idle state lines received takes =>
    exact (manned.congr (b := { a with feed := a.feed.withLines lines }) rfl (Nat.le_refl _)).setPump _

theorem addSource (manned : a.Manned) (name : String) : (a.addSource name).1.Manned := by
  rcases a.addSource_cases name with ⟨same, _⟩ | ⟨feed, line, _, _, after, _⟩ | ⟨reason, after, _⟩
  · rw [same]
    exact manned
  · rw [after]
    refine ⟨?_, fun p member => ?_⟩
    · -- The new pump has a generation that no other has.
      simp only [begun, List.map_append, List.map_singleton]
      refine List.nodup_append.2 ⟨manned.distinct, List.pairwise_singleton _ _, ?_⟩
      rintro g old h new rfl
      obtain ⟨p, member, rfl⟩ := List.mem_map.1 old
      have known := manned.known p member
      have next := List.mem_singleton.1 new
      omega
    · rcases List.mem_append.1 member with old | new
      · exact Nat.le_succ_of_le (manned.known p old)
      · rw [List.mem_singleton.1 new]
        exact Nat.le_refl _
  · rw [after]
    exact manned.congr (b := a.refused _ reason) rfl (Nat.le_succ _)

end Manned

/-! ## What is left to do -/

/-- The number of steps that are left, if none is cut short. -/
def effort (a : Aggregator) : Nat := a.queue.length + total (Pump.effort a.feed.lines) a.pumps

theorem effort_le_workLeft (a : Aggregator) : a.effort ≤ a.workLeft := by
  have each : ∀ (pumps : List Pump) (n : Nat),
      n + total (Pump.effort a.feed.lines) pumps ≤
        pumps.foldl (fun n p => n + 3 * a.feed.lines.load p.line + 6) n := by
    intro pumps
    induction pumps with
    | nil => exact fun _ => Nat.le_refl _
    | cons p pumps ih =>
      intro n
      have stage := p.stage_le
      have rest := ih (n + 3 * a.feed.lines.load p.line + 6)
      rw [total_cons, List.foldl_cons, Pump.effort]
      omega
  exact each a.pumps a.queue.length

theorem effort_push (a : Aggregator) (item : QueueItem) : (a.push item).effort = a.effort + 1 := by
  simp only [effort, push, List.length_append, List.length_singleton]
  omega

theorem effort_endPump {p : Pump} (member : p ∈ a.pumps) :
    (a.endPump p).effort + p.effort a.feed.lines ≤ a.effort := by
  have lines : (a.endPump p).feed.lines = a.feed.lines.release p.line := feed_withLines ..
  have left : total (Pump.effort a.feed.lines) (a.endPump p).pumps + p.effort a.feed.lines ≤
      total (Pump.effort a.feed.lines) a.pumps := total_filter_out _ member (by simp)
  have fewer : total (Pump.effort (a.endPump p).feed.lines) (a.endPump p).pumps ≤
      total (Pump.effort a.feed.lines) (a.endPump p).pumps :=
    total_mono fun q _ => lines ▸ Pump.effort_mono (Lines.load_release _ _) q
  have queue : (a.endPump p).queue = a.queue := rfl
  unfold effort
  rw [queue]
  omega

theorem effort_setPump (manned : a.Manned) {p q : Pump} (member : p ∈ a.pumps)
    (generation : q.generation = p.generation) :
    (a.setPump q).effort + p.effort a.feed.lines = a.effort + q.effort a.feed.lines := by
  have pumps : (a.setPump q).pumps =
      a.pumps.map fun r => if r.generation = p.generation then q else r := by
    rw [← generation]
    rfl
  have replaced := total_replaced (Pump.effort a.feed.lines) (·.generation) manned.distinct member q
  have feed : (a.setPump q).feed = a.feed := rfl
  have queue : (a.setPump q).queue = a.queue := rfl
  unfold effort
  rw [feed, queue, pumps]
  omega

/-- A pump that comes nearer to its end leaves less to do. -/
theorem effort_seen (manned : a.Manned) {p q : Pump} (member : p ∈ a.pumps)
    (generation : q.generation = p.generation) {lines : Lines}
    (loads : ∀ n, lines.load n ≤ a.feed.lines.load n) (nearer : q.effort lines < p.effort a.feed.lines) :
    (a.seen lines q).effort < a.effort := by
  have relined : { a with feed := a.feed.withLines lines }.feed.lines = lines := feed_withLines ..
  have mannedToo : { a with feed := a.feed.withLines lines }.Manned := manned.congr rfl (Nat.le_refl _)
  have moved := effort_setPump mannedToo member generation
  have fewer := total_mono_at (fun r _ => Pump.effort_mono loads r) member
  rw [relined] at moved
  have before : { a with feed := a.feed.withLines lines }.effort =
      a.queue.length + total (Pump.effort lines) a.pumps := by rw [effort, relined]
  have now : a.effort = a.queue.length + total (Pump.effort a.feed.lines) a.pumps := rfl
  unfold seen
  omega

/-- Every step leaves less to do. -/
theorem Worked.effort (manned : a.Manned) (worked : Worked a b) : b.effort < a.effort := by
  cases worked with
  | performed item queue items =>
    have performs := perform_performs { a with queue } item
    have after : ({ a with queue }.perform item).effort =
        queue.length + total (Pump.effort a.feed.lines) a.pumps := by
      rw [Aggregator.effort, performs.queue, performs.feed, performs.pumps]
    rw [after, Aggregator.effort, items, List.length_cons]
    omega
  | ended p member =>
    -- The queue stays as it is, so it matters that a pump always has something left to do.
    have less := effort_endPump member
    have some : 0 < p.effort a.feed.lines := by
      unfold Pump.effort Pump.stage
      split
      · omega
      · split <;> omega
    omega
  | passed p member item holds more =>
    have pushed := a.effort_push item
    have mannedToo : (a.push item).Manned := manned.congr rfl (Nat.le_refl _)
    have moved := effort_setPump mannedToo (q := { p with holding := none }) member rfl
    have nearer : Pump.effort (a.push item).feed.lines { p with holding := none } + 2 =
        p.effort (a.push item).feed.lines := by
      simp only [Pump.effort, Pump.stage, holds, more, Bool.false_eq_true, if_false]
    omega
  | left p member item holds last =>
    have pushed := a.effort_push item
    have less := effort_endPump (a := a.push item) member
    have some : 2 ≤ p.effort (a.push item).feed.lines := by
      simp only [Pump.effort, Pump.stage, holds, last, if_true]
      omega
    omega
  | taken p member idle lines header takes =>
    rcases a.feed.lines.take_cases p.line with ⟨item, queue, isOpen, found, front⟩ | ⟨spent, _⟩ | ⟨waits, _⟩
    · obtain ⟨rfl, _⟩ := Prod.mk.inj (front.symm.trans takes)
      have one := (Lines.load_insert found p.line).2
      refine effort_seen (q := p.brings header) manned member rfl
        (fun n => (Lines.load_insert found n).1) ?_
      have after : (p.brings header).stage ≤ 6 := Pump.stage_le _
      have before : p.stage = 4 := by rw [Pump.stage, idle]
      have line : (p.brings header).line = p.line := rfl
      rw [Pump.effort, Pump.effort, before, line]
      omega
    · cases (Prod.mk.inj (spent.symm.trans takes)).2
    · cases (Prod.mk.inj (waits.symm.trans takes)).2
  | closing p member idle state lines received takes =>
    have loads := a.feed.lines.load_take takes
    have here := loads p.line
    refine effort_seen (q := p.closes state) manned member rfl loads ?_
    simp only [Pump.effort, Pump.stage, Pump.closes, idle, if_true]
    omega

/-! ## Nothing is left to do -/

theorem stepUpTo_done (manned : a.Manned) {n : Nat} (enough : a.effort ≤ n) :
    (stepUpTo n a).step = none := by
  induction n generalizing a with
  | zero =>
    -- A step would leave less than nothing to do.
    show a.step = none
    cases stepped : a.step with
    | none => rfl
    | some b =>
      have less := (step_worked stepped).effort manned
      omega
  | succ n ih =>
    rw [stepUpTo]
    cases stepped : a.step with
    | none => exact stepped
    | some b =>
      have worked := step_worked stepped
      have less := worked.effort manned
      exact ih (manned.worked worked) (by omega)

/-- An aggregator that settles has nothing left to do. -/
theorem settle_done (manned : a.Manned) : a.settle.step = none :=
  stepUpTo_done manned a.effort_le_workLeft

theorem stepUpTo_idle (idle : a.step = none) (n : Nat) : stepUpTo n a = a := by
  cases n with
  | zero => rfl
  | succ n => rw [stepUpTo, idle]

theorem stepUpTo_add (n k : Nat) (a : Aggregator) : stepUpTo (n + k) a = stepUpTo k (stepUpTo n a) := by
  induction n generalizing a with
  | zero =>
    rw [Nat.zero_add]
    rfl
  | succ n ih =>
    rw [Nat.succ_add, stepUpTo, stepUpTo]
    cases idle : a.step with
    | none => exact (stepUpTo_idle idle k).symm
    | some b => exact ih b

/-- However many steps have been taken already, it settles as it would have. -/
theorem settle_stepUpTo (manned : a.Manned) (n : Nat) : (stepUpTo n a).settle = a.settle := by
  have later : (stepUpTo n a).Manned := stepUpTo_keeps (fun _ _ manned => manned.worked) manned n
  -- Both are where so many steps lead as are enough for either.
  have first : stepUpTo (a.workLeft + (n + (stepUpTo n a).workLeft)) a = a.settle := by
    rw [stepUpTo_add]
    exact stepUpTo_idle (settle_done manned) _
  have second : stepUpTo ((n + (stepUpTo n a).workLeft) + a.workLeft) a = (stepUpTo n a).settle := by
    rw [stepUpTo_add, stepUpTo_add]
    exact stepUpTo_idle (settle_done later) _
  rw [← first, ← second, Nat.add_comm]

end Aggregator

end BlockGraph
