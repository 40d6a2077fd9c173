import BlockGraph.Proofs.Aggregator.Deeds

/-!
# Effects

Everything that an incident can do to the registry and the graph, said once. It is one of five things,
and each of them touches at most one entry, except that a shutdown ends all active sources.

* `Effect`, `incur_effect` — the five things; every incident does one of them.
* `Effect.origin`, `Effect.fate` — where an entry comes from, and what becomes of one that is over.
-/

namespace BlockGraph

namespace Aggregator

variable {a b : Aggregator} {i : Incident} {id name : String} {s t : Source}

/-! ## What an incident does to the registry and the graph -/

/-- Everything that an incident can do to the registry and the graph. -/
inductive Effect (a : Aggregator) (i : Incident) (b : Aggregator) : Prop
  | aside (aside : Aside a b)
  /-- One active source changes; the graph may grow. -/
  | became (id : String) (s t : Source) (found : a.sources.get? id = some s) (active : s.active = true)
      (becomes : s.Becomes a.settings.eventCap t)
      (sources : ∀ other, b.sources.get? other = if other = id then some t else a.sources.get? other)
      (settings : b.settings = a.settings) (lastGeneration : b.lastGeneration = a.lastGeneration)
  | removed (id : String) (call : i = .move (.remove id))
      (sources : ∀ other, b.sources.get? other = if other = id then none else a.sources.get? other)
      (rest : Aside { a with sources := b.sources } b)
  | added (id : String) (t : Source) (registers : a.registers? i = some id)
      (fresh : t.Fresh id (a.lastGeneration + 1))
      (sources : ∀ other, b.sources.get? other = if other = id then some t else a.sources.get? other)
      (rest : Aside { a with sources := b.sources, lastGeneration := a.lastGeneration + 1 } b)
  | stopped (order : List String) (call : i = .move (.shutdown order) ∨ i = .silence order)
      (sources : ∀ id, b.sources.get? id = (a.sources.get? id).map (·.deactivate .stopped))
      (rest : Aside { a with sources := b.sources } b)

/-- A call that may add a source and registers none does nothing. -/
theorem incur_barred (adds : i.adds? = some name) (barred : a.registers? i = none) : a.incur i = a := by
  cases i with
  | move m =>
    cases m with
    | add called => exact addSource_barred (by simpa [registers?] using barred)
    | _ => cases adds
  | enter called => exact if_neg (by simpa [registers?] using barred)
  | _ => cases adds

theorem incur_registers (registers : a.registers? i = some id) : ∃ t : Source,
    t.Fresh id (a.lastGeneration + 1) ∧ (a.incur i).sources.get? id = some t := by
  obtain ⟨name, rfl, may, rfl | ⟨rfl, up⟩⟩ := registers?_cases registers
  · refine ⟨_, .running, ?_⟩
    rw [incur, entered_eq may]
    exact SortedMap.get?_insert_self ..
  · obtain ⟨spelled, idle⟩ := mayEnter_iff.1 may
    simp only [incur, act]
    cases subscribed : a.feed.subscribe (Text.trim name) with
    | ok granted =>
      obtain ⟨feed, line⟩ := granted
      rw [addSource_begun spelled up idle subscribed]
      exact ⟨_, .running, SortedMap.get?_insert_self ..⟩
    | error error =>
      rw [addSource_refused spelled up idle subscribed]
      exact ⟨_, .failed error.message, SortedMap.get?_insert_self ..⟩

/-- One entry is replaced. -/
theorem Beside.replaced {t : Source} (rest : Beside (a.setAndPublish t) b) (other : String) :
    b.sources.get? other = if other = t.id then some t else a.sources.get? other := by
  rw [rest.sources]
  exact get?_setAndPublish a t other

theorem Deed.effect (filed : a.Filed) (deed : Deed a i b) : Effect a i b := by
  cases deed with
  | aside rest => exact .aside rest.toAside
  | retold s _ rest =>
    exact .aside ⟨rest.settings, rest.sources, rest.lastGeneration, rest.store, rest.journal⟩
  | counted s header found active room _ rest =>
    have becomes := Source.Becomes.counted room header.hash
    exact .became s.id s _ found active becomes (becomes.incarnation.1 ▸ rest.replaced)
      rest.settings rest.lastGeneration
  | closed s state found active idle full rest =>
    exact .became s.id s _ found active (.closed state idle full) rest.replaced
      rest.settings rest.lastGeneration
  | removed s call found rest =>
    refine .removed s.id call (fun other => ?_)
      ⟨rest.settings, rfl, rest.lastGeneration, rest.store, rest.journal⟩
    rw [rest.sources]
    exact SortedMap.get?_erase ..
  | added id t registers fresh rest =>
    exact .added id t registers fresh (fresh.entry.1 ▸ rest.replaced)
      ⟨rest.settings, rfl, rest.lastGeneration, rest.store, rest.journal⟩
  | entered name call may rest =>
    subst call
    rw [entered_eq may] at rest
    refine .added _ _ (if_pos may) .running (fun other => ?_)
      ⟨rest.settings, rfl, rest.lastGeneration, rest.store, rest.journal⟩
    rw [rest.sources]
    exact SortedMap.get?_insert ..
  | stopped order call rest =>
    refine .stopped order call (fun id => ?_) ?_
    · rw [rest.sources]
      exact get?_stopAll filed order id
    · obtain ⟨sources, log, shape⟩ := a.stopEach_shape (order ++ a.sources.keys)
      rw [stopAll, shape] at rest
      exact ⟨rest.settings, rfl, rest.lastGeneration, rest.store, rest.journal⟩

theorem incur_effect (filed : a.Filed) (fromFeed : a.FromFeed) (i : Incident) :
    Effect a i (a.incur i) := (incur_deed filed fromFeed i).effect filed

/-! ## What an effect means for an entry -/

theorem Effect.settings (effect : Effect a i b) : b.settings = a.settings := by
  cases effect with
  | aside aside => exact aside.settings
  | became _ _ _ _ _ _ _ settings => exact settings
  | removed _ _ _ rest => exact rest.settings
  | added _ _ _ _ _ rest => exact rest.settings
  | stopped _ _ _ rest => exact rest.settings

theorem Effect.lastGeneration (effect : Effect a i b) : a.lastGeneration ≤ b.lastGeneration := by
  cases effect with
  | aside aside => exact Nat.le_of_eq aside.lastGeneration.symm
  | became _ _ _ _ _ _ _ _ last => exact Nat.le_of_eq last.symm
  | removed _ _ _ rest => exact Nat.le_of_eq rest.lastGeneration.symm
  | added _ _ _ _ _ rest => exact rest.lastGeneration ▸ Nat.le_succ _
  | stopped _ _ _ rest => exact Nat.le_of_eq rest.lastGeneration.symm

inductive Origin (a : Aggregator) (i : Incident) (b : Aggregator) (id : String) (t : Source) : Prop
  | kept (before : a.sources.get? id = some t)
  | became (s : Source) (before : a.sources.get? id = some s) (active : s.active = true)
      (becomes : s.Becomes a.settings.eventCap t)
  | added (registers : a.registers? i = some id) (fresh : t.Fresh id (a.lastGeneration + 1))
      (last : b.lastGeneration = a.lastGeneration + 1)

theorem Effect.origin (effect : Effect a i b) (after : b.sources.get? id = some t) :
    Origin a i b id t := by
  cases effect with
  | aside aside => exact .kept (aside.sources ▸ after)
  | became name s u found active becomes sources =>
    rw [sources] at after
    split at after
    next own =>
      obtain rfl := Option.some.inj after
      exact .became s (own ▸ found) active becomes
    next => exact .kept after
  | removed name _ sources =>
    rw [sources] at after
    split at after
    · cases after
    · exact .kept after
  | added name u registers fresh sources rest =>
    rw [sources] at after
    split at after
    next own =>
      obtain rfl := Option.some.inj after
      exact .added (own ▸ registers) (own ▸ fresh) rest.lastGeneration
    next => exact .kept after
  | stopped _ _ sources =>
    rw [sources] at after
    obtain ⟨s, before, rfl⟩ := Option.map_eq_some_iff.1 after
    cases active : s.active with
    | true =>
      rw [s.deactivate_of_active active]
      exact .became s before active (.closed .stopped (by simp) (by simp))
    | false =>
      rw [s.deactivate_of_idle active]
      exact .kept before

/-- What becomes of an entry that is over. -/
theorem Effect.fate (effect : Effect a i b) (found : a.sources.get? id = some s)
    (idle : s.active = false) :
    b.sources.get? id = some s ∨ i = .move (.remove id) ∨
      a.registers? i = some id ∧ ∃ t, b.sources.get? id = some t ∧
        t.generation = a.lastGeneration + 1 := by
  cases effect with
  | aside aside => exact .inl (aside.sources ▸ found)
  | became name u t there active becomes sources =>
    refine .inl ?_
    rw [sources]
    split
    next own =>
      obtain rfl := Option.some.inj (found.symm.trans (own ▸ there))
      rw [active] at idle
      cases idle
    next => exact found
  | removed name call sources =>
    by_cases own : id = name
    · exact .inr (.inl (own ▸ call))
    · exact .inl ((sources id).trans ((if_neg own).trans found))
  | added name t registers fresh sources rest =>
    by_cases own : id = name
    · exact .inr (.inr ⟨own ▸ registers, t, (sources id).trans (if_pos own), fresh.entry.2.1⟩)
    · exact .inl ((sources id).trans ((if_neg own).trans found))
  | stopped _ _ sources =>
    refine .inl ?_
    rw [sources, found, Option.map_some, s.deactivate_of_idle idle]

end Aggregator

end BlockGraph
