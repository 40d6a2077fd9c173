import BlockGraph.Proofs.Aggregator.Flow

/-!
# Soundness

What holds at any time of a run: what was published to an active incarnation has been applied or is on
its way, and an incarnation that has ended had everything. Here is what a move has to do to keep that.

* `Sound` — what holds at any time of a run.
* `Onward` — a move keeps it, and leaves alone what is finished.
* `Kept.onward` — what a move has to keep for that if it adds no source.
* `Fading.onward`, `Wired.onward` — moves that only concern the registry, or only pumps and lines.
* `Added.onward` — what has to hold of a move that adds a source.
-/

namespace BlockGraph

/-- A source is the same incarnation later on, and not active again. -/
structure Source.Follows (s t : Source) : Prop where
  id : t.id = s.id
  generation : t.generation = s.generation
  active : t.active = true → s.active = true

theorem Source.Fades.follows {s t : Source} (fades : s.Fades t) : s.Follows t :=
  ⟨fades.id, fades.generation, fades.active⟩

theorem Source.Follows.idle {s t : Source} (follows : s.Follows t) (idle : s.active = false) :
    t.active = false := by
  cases active : t.active with
  | false => rfl
  | true => rw [follows.active active] at idle; cases idle

namespace Aggregator

open Occurrence

variable {a b : Aggregator} {past later : List Occurrence} {id : String} {g : Nat}

/-- What holds at any time of a run. -/
structure Sound (a : Aggregator) (past : List Occurrence) : Prop where
  wired : a.Wired past
  filed : a.Filed
  known : ∀ id s, a.sources.get? id = some s → s.generation ≤ a.lastGeneration
  queued : ∀ item ∈ a.queue, item.generation ≤ a.lastGeneration
  down : a.isDown = true → ∀ id s, a.sources.get? id = some s → s.active = false
  flows : ∀ id s, a.sources.get? id = some s → s.active = true → a.Flows past id s.generation
  ended : ∀ id s, a.sources.get? id = some s → s.state = .ended → a.Finished past id s.generation
  credited : ∀ id g, acceptedThrough id g past <+: named (publishedTo id g past)

/-- Nothing was published or applied for the generation that comes next. -/
theorem Sound.unused (sound : a.Sound past) (id : String) :
    publishedTo id (a.lastGeneration + 1) past = [] ∧
      acceptedThrough id (a.lastGeneration + 1) past = [] := by
  have unknown : .added id (a.lastGeneration + 1) ∉ past := fun member =>
    absurd (sound.wired.known id _ member) (Nat.not_succ_le_self _)
  have published : publishedTo id (a.lastGeneration + 1) past = [] := publishedTo_unknown unknown
  have credited := sound.credited id (a.lastGeneration + 1)
  rw [published] at credited
  exact ⟨published, List.prefix_nil.1 credited⟩

/-- A move keeps what holds at any time, and what is finished stays so. -/
structure Onward (a : Aggregator) (past : List Occurrence) (b : Aggregator)
    (later : List Occurrence) : Prop where
  sound : b.Sound later
  finished : ∀ id g, a.Finished past id g → b.Finished later id g

theorem Onward.trans {c : Aggregator} {latest : List Occurrence} (first : Onward a past b later)
    (second : Onward b later c latest) : Onward a past c latest :=
  ⟨second.sound, fun id g finished => second.finished id g (first.finished id g finished)⟩

theorem Onward.refl (sound : a.Sound past) : Onward a past a past :=
  ⟨sound, fun _ _ finished => finished⟩

/-! ## Moves that add no source -/

theorem Finished.next (finished : a.Finished past id g)
    (grown : a.lastGeneration ≤ b.lastGeneration) (gone : b.pump? g = none)
    (quiet : ∀ t, b.sources.get? id = some t → t.generation = g → t.active = false)
    (accepted : acceptedThrough id g later = acceptedThrough id g past)
    (published : publishedTo id g later = publishedTo id g past) : b.Finished later id g := by
  refine ⟨Nat.le_trans finished.known grown, gone, quiet, ?_⟩
  rw [accepted, published]
  exact finished.whole

/-- What a move has to keep that adds no source. -/
structure Kept (a : Aggregator) (past : List Occurrence) (b : Aggregator)
    (later : List Occurrence) : Prop where
  wired : b.Wired later
  generations : b.lastGeneration = a.lastGeneration
  follows : ∀ id t, b.sources.get? id = some t → ∃ s, a.sources.get? id = some s ∧ s.Follows t
  queued : ∀ item ∈ b.queue, item.generation ≤ a.lastGeneration
  down : b.isDown = a.isDown
  flows : ∀ id t, b.sources.get? id = some t → t.active = true →
    a.Flows past id t.generation → b.Flows later id t.generation
  gone : ∀ g, a.pump? g = none → b.pump? g = none
  accepted : ∀ id g, a.Finished past id g → acceptedThrough id g later = acceptedThrough id g past
  published : ∀ id g, a.Finished past id g → publishedTo id g later = publishedTo id g past
  ended : ∀ id t, b.sources.get? id = some t → t.state = .ended →
    a.Finished past id t.generation ∨ b.Finished later id t.generation
  credited : ∀ id g, acceptedThrough id g later <+: named (publishedTo id g later)

theorem Kept.onward (sound : a.Sound past) (kept : Kept a past b later) : Onward a past b later := by
  have finished : ∀ id g, a.Finished past id g → b.Finished later id g := by
    intro id g finished
    refine finished.next (Nat.le_of_eq kept.generations.symm) (kept.gone g finished.gone) ?_
      (kept.accepted id g finished) (kept.published id g finished)
    intro t after same
    obtain ⟨s, before, follows⟩ := kept.follows id t after
    exact follows.idle (finished.quiet s before (follows.generation.symm.trans same))
  refine ⟨⟨kept.wired, ?_, ?_, ?_, ?_, ?_, ?_, kept.credited⟩, finished⟩
  · intro id t after
    obtain ⟨s, before, follows⟩ := kept.follows id t after
    rw [follows.id]
    exact sound.filed id s before
  · intro id t after
    obtain ⟨s, before, follows⟩ := kept.follows id t after
    rw [follows.generation, kept.generations]
    exact sound.known id s before
  · rw [kept.generations]
    exact kept.queued
  · intro down id t after
    obtain ⟨s, before, follows⟩ := kept.follows id t after
    exact follows.idle (sound.down (kept.down ▸ down) id s before)
  · intro id t after active
    obtain ⟨s, before, follows⟩ := kept.follows id t after
    -- Who is active now was active before, in the same generation.
    refine kept.flows id t after active ?_
    rw [follows.generation]
    exact sound.flows id s before (follows.active active)
  · intro id t after hasEnded
    rcases kept.ended id t after hasEnded with old | new
    · exact finished id t.generation old
    · exact new

theorem Flows.fading (flows : a.Flows past id g) (fading : Fading a b) : b.Flows past id g :=
  flows.congr (by rw [pump?, fading.pumps, pump?]) fading.queue
    (fun _ _ => by rw [headersOn, line?, fading.feed, headersOn, line?]) rfl rfl

/-- The front of the queue is taken, as far as `rest` is what is left of it. -/
def popped (a : Aggregator) (rest : List QueueItem) : Aggregator := { a with queue := rest }

/-- A move that only concerns the front of the queue and the registry. -/
theorem Fading.moved (sound : a.Sound past) {rest : List QueueItem} (left : ∀ item ∈ rest, item ∈ a.queue)
    (fading : Fading (a.popped rest) b) (wired : b.Wired past → b.Wired later)
    (flows : ∀ id t, b.sources.get? id = some t → t.active = true → a.Flows past id t.generation →
      (a.popped rest).Flows later id t.generation)
    (accepted : ∀ id g, a.Finished past id g → acceptedThrough id g later = acceptedThrough id g past)
    (published : ∀ id g, publishedTo id g later = publishedTo id g past)
    (credited : ∀ id g, acceptedThrough id g later <+: named (publishedTo id g later)) :
    Onward a past b later := by
  have pump : ∀ g, b.pump? g = a.pump? g := fun g => by rw [pump?, fading.pumps]; rfl
  have same : b.Wired past :=
    sound.wired.congr fading.pumps fading.feed (Nat.le_of_eq fading.lastGeneration.symm)
  apply Kept.onward sound
  exact
    { wired := wired same
      generations := fading.lastGeneration
      follows := fun id t after => by
        obtain ⟨s, before, fades⟩ := fading.sources id t after
        exact ⟨s, before, fades.follows⟩
      queued := fun item member => by
        rw [fading.queue] at member
        exact sound.queued item (left item member)
      down := fading.isDown
      flows := fun id t after active before => (flows id t after active before).fading fading
      gone := fun g gone => (pump g).trans gone
      accepted
      published := fun id g _ => published id g
      ended := fun id t after hasEnded => by
        obtain ⟨s, before, fades⟩ := fading.sources id t after
        rw [fades.generation]
        exact .inl (sound.ended id s before (fades.ended hasEnded))
      credited }

/-- A move that only concerns the registry. -/
theorem Fading.onward (sound : a.Sound past) (fading : Fading a b) : Onward a past b past :=
  Fading.moved sound (fun _ member => member) (fading : Fading (a.popped a.queue) b)
    (fun wired => wired) (fun _ _ _ _ flows => flows) (fun _ _ _ => rfl) (fun _ _ => rfl) sound.credited

/-- A move that only concerns pumps, lines and the queue. -/
theorem Wired.onward (sound : a.Sound past) (wired : b.Wired past) (sources : b.sources = a.sources)
    (generations : b.lastGeneration = a.lastGeneration) (isDown : b.isDown = a.isDown)
    (queued : ∀ item ∈ b.queue, item.generation ≤ a.lastGeneration)
    (gone : ∀ g, a.pump? g = none → b.pump? g = none)
    (flows : ∀ id s, a.sources.get? id = some s → s.active = true →
      a.Flows past id s.generation → b.Flows past id s.generation) :
    Onward a past b past := by
  apply Kept.onward sound
  exact
    { wired, generations, queued, gone
      follows := fun id t after => ⟨t, sources ▸ after, rfl, rfl, fun active => active⟩
      down := isDown
      flows := sources ▸ flows
      accepted := fun _ _ _ => rfl
      published := fun _ _ _ => rfl
      ended := fun id t after hasEnded => .inl (sound.ended id t (sources ▸ after) hasEnded)
      credited := sound.credited }

/-! ## Moves that add a source -/

/-- What has to hold of a move that adds a source, in a new generation. -/
structure Added (a : Aggregator) (past : List Occurrence) (t : Source) (b : Aggregator)
    (later : List Occurrence) : Prop where
  wired : b.Wired later
  sources : b.sources = a.sources.insert t.id t
  generation : t.generation = a.lastGeneration + 1
  grown : b.lastGeneration = a.lastGeneration + 1
  queue : b.queue = a.queue
  down : b.isDown = a.isDown
  up : t.active = true → a.isDown = false
  lasts : t.state ≠ .ended
  pump : ∀ g, g ≤ a.lastGeneration → b.pump? g = a.pump? g
  lines : ∀ g p, a.pump? g = some p → b.headersOn p.line = a.headersOn p.line
  accepted : ∀ id g, acceptedThrough id g later = acceptedThrough id g past
  published : ∀ id g, publishedTo id g later = publishedTo id g past
  flows : t.active = true → b.Flows later t.id t.generation

theorem Added.onward (sound : a.Sound past) {t : Source} (added : Added a past t b later) :
    Onward a past b later := by
  have entry : ∀ id s, b.sources.get? id = some s →
      id = t.id ∧ s = t ∨ id ≠ t.id ∧ a.sources.get? id = some s := by
    intro id s after
    rw [added.sources, SortedMap.get?_insert] at after
    split at after
    next same => exact .inl ⟨same, (Option.some.inj after).symm⟩
    next other => exact .inr ⟨other, after⟩
  have finished : ∀ id g, a.Finished past id g → b.Finished later id g := by
    intro id g finished
    refine finished.next (added.grown ▸ Nat.le_succ _) ?_ ?_
      (added.accepted id g) (added.published id g)
    · rw [added.pump g finished.known]
      exact finished.gone
    · intro s after same
      rcases entry id s after with ⟨_, rfl⟩ | ⟨_, before⟩
      -- The new generation is none that was known.
      · rw [added.generation] at same
        exact absurd finished.known (same ▸ Nat.not_succ_le_self _)
      · exact finished.quiet s before same
  refine ⟨⟨added.wired, ?_, ?_, ?_, ?_, ?_, ?_, ?_⟩, finished⟩
  · intro id s after
    rcases entry id s after with ⟨rfl, rfl⟩ | ⟨_, before⟩
    · rfl
    · exact sound.filed id s before
  · intro id s after
    rw [added.grown]
    rcases entry id s after with ⟨_, rfl⟩ | ⟨_, before⟩
    · exact Nat.le_of_eq added.generation
    · exact Nat.le_succ_of_le (sound.known id s before)
  · intro item member
    rw [added.grown]
    exact Nat.le_succ_of_le (sound.queued item (added.queue ▸ member))
  · intro down id s after
    rw [added.down] at down
    rcases entry id s after with ⟨_, rfl⟩ | ⟨_, before⟩
    · cases active : s.active with
      | false => rfl
      | true => rw [added.up active] at down; cases down
    · exact sound.down down id s before
  · intro id s after active
    rcases entry id s after with ⟨rfl, rfl⟩ | ⟨_, before⟩
    · exact added.flows active
    · exact (sound.flows id s before active).congr (added.pump _ (sound.known id s before)) added.queue
        (added.lines _) (added.accepted id _) (added.published id _)
  · intro id s after hasEnded
    rcases entry id s after with ⟨_, rfl⟩ | ⟨_, before⟩
    · exact absurd hasEnded added.lasts
    · exact finished id _ (sound.ended id s before hasEnded)
  · intro id g
    rw [added.accepted, added.published]
    exact sound.credited id g

end Aggregator

end BlockGraph
