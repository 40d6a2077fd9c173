import BlockGraph.Proofs.Aggregator.Lifecycle
import BlockGraph.Proofs.Engine.Import
import BlockGraph.Proofs.Store.Reports
import BlockGraph.Snapshot

/-!
# Consistent snapshots

A header is counted for a source exactly when it is applied to the graph, and both happen at once. So
the registry and the graph agree in every snapshot: the latest hash of a source is that of a block which
the source has reported; and as long as no source is removed or registered again, every reporter of a
block is listed, and the reports of all blocks together are no more than what the sources have counted.

* `Snapshot.Consistent`, `Snapshot.Accounted` — what a snapshot says of itself, without its history.
* `Progress`, `Deed.progress` — a header is counted and applied, or no count and no block changes.
* `Attested`, `Balanced` — the headers that were applied account for the registry.
* `afterAll_snapshot` — snapshots are consistent, whatever happens in whatever order.
-/

namespace BlockGraph

/-! ## What a snapshot says of itself -/

namespace Snapshot

structure Consistent (s : Snapshot) : Prop where
  nodes : (s.nodes.map (·.hash)).Nodup
  edges : ∀ e ∈ s.edges, (∃ b ∈ s.nodes, b.hash = e.parentHash) ∧ ∃ b ∈ s.nodes, b.hash = e.childHash
  sources : (s.sources.map (·.id)).Pairwise (· < ·)
  latest : ∀ status ∈ s.sources, ∀ hash, status.latestHash = some hash →
    ∃ b ∈ s.nodes, b.hash = hash ∧ SortedMap.contains b.reportingSources status.id = true
  counted : ∀ status ∈ s.sources, status.latestHash.isSome = true ↔ 0 < status.observedCount

/-- The sources account for all that is reported. -/
structure Accounted (s : Snapshot) : Prop where
  listed : ∀ b ∈ s.nodes, ∀ id, SortedMap.contains b.reportingSources id = true →
    ∃ status ∈ s.sources, status.id = id ∧ 0 < status.observedCount
  total : total (fun b => b.reportingSources.size) s.nodes ≤ total (·.observedCount) s.sources

end Snapshot

namespace Source

variable {s t : Source} {cap : Option Nat}

/-- Two entries that have counted the same. -/
def Even (s t : Source) : Prop := t.observedCount = s.observedCount ∧ t.latestHash = s.latestHash

theorem deactivate_even (s : Source) (state : SourceState) : s.Even (s.deactivate state) := by
  unfold deactivate
  split <;> exact ⟨rfl, rfl⟩

theorem capped_even (s : Source) (cap : Option Nat) : s.Even (s.capped cap) := by
  unfold capped
  split
  · exact s.deactivate_even .capReached
  · exact ⟨rfl, rfl⟩

end Source

namespace Aggregator

variable {a b : Aggregator} {i : Incident} {table : SealTable} {policy : EdgePolicy}
  {told more : List Announcement}

/-! ## Sources that stay -/

/-- Whether an incident neither forgets a source nor registers one over an earlier entry. -/
def replacesNothing (a : Aggregator) : Incident → Bool
  | .move (.remove id) => (a.sources.get? id).isNone
  | i => ((a.registers? i).bind a.sources.get?).isNone

/-- Whether this holds of incidents, one after another. -/
def isSteady (a : Aggregator) : List Incident → Bool
  | [] => true
  | i :: later => a.replacesNothing i && (a.incur i).isSteady later

theorem unregistered_of_registers {id : String} (steady : a.replacesNothing i = true)
    (registers : a.registers? i = some id) : a.sources.get? id = none := by
  obtain ⟨name, _, _, rfl | ⟨rfl, _⟩⟩ := registers?_cases registers
  · simpa [replacesNothing, registers] using steady
  · simpa [replacesNothing, registers] using steady

/-! ## What is counted is applied -/

/-- What an incident does to the graph, and to the counts of the sources. -/
inductive Progress (a : Aggregator) (i : Incident) (b : Aggregator) : List Announcement → Prop
  | counted (s t : Source) (header : Header) (found : a.sources.get? s.id = some s)
      (named : header.isBlank = false) (twins : Engine.Twins b.engine (a.engine.applied s.id header))
      (count : t.observedCount = s.observedCount + 1) (latest : t.latestHash = some header.hash)
      (sources : ∀ id, b.sources.get? id = if id = s.id then some t else a.sources.get? id) :
      Progress a i b [⟨s.id, header⟩]
  | still (twins : Engine.Twins b.engine a.engine)
      (entries : ∀ id t, b.sources.get? id = some t →
        (∃ s, a.sources.get? id = some s ∧ s.Even t) ∨
          t.observedCount = 0 ∧ t.latestHash = none ∧ a.registers? i = some id)
      (kept : ∀ id s, a.sources.get? id = some s →
        (∃ t, b.sources.get? id = some t) ∨ i = .move (.remove id)) : Progress a i b []

/-- Where the registry stays as it is, nothing is counted. -/
theorem Progress.same (twins : Engine.Twins b.engine a.engine) (sources : b.sources = a.sources) :
    Progress a i b [] :=
  .still twins (fun _ t after => .inl ⟨t, sources ▸ after, rfl, rfl⟩)
    fun _ s before => .inl ⟨s, sources ▸ before⟩

/-- Where one entry is replaced by one that has counted the same, nothing is counted. -/
theorem Progress.replaced {s t : Source} (twins : Engine.Twins b.engine a.engine)
    (found : a.sources.get? s.id = some s) (even : s.Even t)
    (sources : ∀ id, b.sources.get? id = if id = s.id then some t else a.sources.get? id) :
    Progress a i b [] := by
  refine .still twins (fun id u after => .inl ?_) fun id u before => .inl ?_
  · rw [sources] at after
    split at after
    next own =>
      obtain rfl := Option.some.inj after
      exact ⟨s, own ▸ found, even⟩
    next => exact ⟨u, after, rfl, rfl⟩
  · rw [sources]
    split
    · exact ⟨t, rfl⟩
    · exact ⟨u, before⟩

/-- Where a fresh entry is registered, nothing is counted. -/
theorem Progress.registered {t : Source} {own : String} (twins : Engine.Twins b.engine a.engine)
    (registers : a.registers? i = some own) (fresh : t.Fresh own (a.lastGeneration + 1))
    (sources : ∀ id, b.sources.get? id = if id = own then some t else a.sources.get? id) :
    Progress a i b [] := by
  obtain ⟨_, _, count, latest⟩ := fresh.entry
  refine .still twins (fun id u after => ?_) fun id u before => .inl ?_
  · rw [sources] at after
    split at after
    next same =>
      obtain rfl := Option.some.inj after
      exact .inr ⟨count, latest, same ▸ registers⟩
    next => exact .inl ⟨u, after, rfl, rfl⟩
  · rw [sources]
    split
    · exact ⟨t, rfl⟩
    · exact ⟨u, before⟩

theorem Deed.progress (filed : a.Filed) (deed : Deed a i b) : ∃ more, Progress a i b more := by
  cases deed with
  | aside rest => exact ⟨[], .same ⟨rest.store, rest.lanes⟩ rest.sources⟩
  | retold s _ rest => exact ⟨[], .same ⟨rest.store, rest.lanes⟩ rest.sources⟩
  | counted s header found _ room named rest =>
    have id := (Source.Becomes.counted room header.hash).incarnation.1
    have even := (s.record header.hash).capped_even a.settings.eventCap
    exact ⟨_, .counted s _ header found named ⟨rest.store, rest.lanes⟩ even.1 even.2 (id ▸ rest.replaced)⟩
  | closed s state found _ _ _ rest =>
    have even : s.Even { s with active := false, state } := ⟨rfl, rfl⟩
    exact ⟨[], .replaced ⟨rest.store, rest.lanes⟩ found even rest.replaced⟩
  | removed s call found rest =>
    have sources (id : String) : b.sources.get? id = if id = s.id then none else a.sources.get? id := by
      rw [rest.sources]
      exact SortedMap.get?_erase ..
    refine ⟨[], .still ⟨rest.store, rest.lanes⟩ (fun id t after => .inl ?_) fun id u before => ?_⟩
    · rw [sources] at after
      split at after
      · cases after
      · exact ⟨t, after, rfl, rfl⟩
    · by_cases own : id = s.id
      · exact .inr (own ▸ call)
      · exact .inl ⟨u, (sources id).trans ((if_neg own).trans before)⟩
  | added id t registers fresh rest =>
    exact ⟨[], .registered ⟨rest.store, rest.lanes⟩ registers fresh (fresh.entry.1 ▸ rest.replaced)⟩
  | entered name call may rest =>
    rw [entered_eq may] at rest
    subst call
    refine ⟨[], .registered ⟨rest.store, rest.lanes⟩ (if_pos may) .running fun id => ?_⟩
    rw [rest.sources]
    exact SortedMap.get?_insert ..
  | stopped order _ rest =>
    have engine := a.stopAll_engine order
    have sources (id : String) : b.sources.get? id = (a.sources.get? id).map (·.deactivate .stopped) := by
      rw [rest.sources, get?_stopAll filed]
    have twins : Engine.Twins b.engine a.engine := engine ▸ ⟨rest.store, rest.lanes⟩
    refine ⟨[], .still twins (fun id t after => .inl ?_) fun id s before => .inl ?_⟩
    · rw [sources] at after
      obtain ⟨s, before, rfl⟩ := Option.map_eq_some_iff.1 after
      exact ⟨s, before, s.deactivate_even .stopped⟩
    · exact ⟨_, (sources id).trans (congrArg _ before)⟩

/-! ## The headers that were applied -/

/-- The graph is that of the headers that were applied, and the latest hash of a source is that of one
of its headers. -/
structure Attested (table : SealTable) (policy : EdgePolicy) (told : List Announcement)
    (a : Aggregator) : Prop where
  engine : Engine.Twins a.engine ((Engine.new table policy).appliedAll told)
  named : ∀ t ∈ told, t.header.isBlank = false
  latest : ∀ id s, a.sources.get? id = some s → ∀ hash, s.latestHash = some hash →
    ∃ t ∈ told, t.source = id ∧ t.header.hash = hash
  counted : ∀ id s, a.sources.get? id = some s → (s.latestHash.isSome = true ↔ 0 < s.observedCount)

/-- What the sources have counted are the headers that were applied. -/
structure Balanced (told : List Announcement) (a : Aggregator) : Prop where
  registered : ∀ t ∈ told, ∃ s, a.sources.get? t.source = some s
  counts : ∀ id s, a.sources.get? id = some s →
    s.observedCount = (told.filter (·.source == id)).length

theorem Attested.progress (attested : Attested table policy told a) (progress : Progress a i b more) :
    Attested table policy (told ++ more) b := by
  -- The header that is counted is the one that is applied; otherwise nothing is added to either side.
  cases progress with
  | counted s t header found named twins count latest sources =>
    refine ⟨?_, ?_, ?_, ?_⟩
    · rw [Engine.appliedAll_append]
      exact twins.trans (attested.engine.apply ⟨s.id, header⟩).2
    · intro u member
      rcases List.mem_append.1 member with old | new
      · exact attested.named u old
      · rwa [List.mem_singleton.1 new]
    · intro id u after hash hashes
      rw [sources] at after
      split at after
      next own =>
        obtain rfl := Option.some.inj after
        rw [latest] at hashes
        exact ⟨_, List.mem_append_right _ (List.mem_singleton_self _), own.symm, Option.some.inj hashes⟩
      next =>
        obtain ⟨v, member, rest⟩ := attested.latest id u after hash hashes
        exact ⟨v, List.mem_append_left _ member, rest⟩
    · intro id u after
      rw [sources] at after
      split at after
      · obtain rfl := Option.some.inj after
        simp [latest, count]
      · exact attested.counted id u after
  | still twins entries =>
    rw [List.append_nil]
    refine ⟨twins.trans attested.engine, attested.named, ?_, ?_⟩
    · intro id t after hash hashes
      rcases entries id t after with ⟨s, before, _, same⟩ | ⟨_, none, _⟩
      · exact attested.latest id s before hash (same ▸ hashes)
      · rw [none] at hashes
        cases hashes
    · intro id t after
      rcases entries id t after with ⟨s, before, count, same⟩ | ⟨count, none, _⟩
      · rw [count, same]
        exact attested.counted id s before
      · simp [count, none]

theorem Balanced.progress (balanced : Balanced told a) (progress : Progress a i b more)
    (steady : a.replacesNothing i = true) : Balanced (told ++ more) b := by
  cases progress with
  | counted s t header found _ _ count _ sources =>
    refine ⟨fun u member => ?_, fun id u after => ?_⟩
    · rw [sources]
      split
      · exact ⟨t, rfl⟩
      next other =>
        rcases List.mem_append.1 member with old | new
        · exact balanced.registered u old
        · rw [List.mem_singleton.1 new] at other
          exact absurd rfl other
    · rw [sources] at after
      rw [List.filter_append, List.length_append]
      split at after
      next own =>
        obtain rfl := Option.some.inj after
        subst own
        rw [count, balanced.counts s.id s found]
        simp
      next other =>
        rw [balanced.counts id u after]
        simp [Ne.symm other]
  | still _ entries kept =>
    rw [List.append_nil]
    refine ⟨fun t member => ?_, fun id t after => ?_⟩
    · -- Only a source that was not registered may be removed.
      obtain ⟨s, before⟩ := balanced.registered t member
      refine (kept t.source s before).resolve_right fun call => ?_
      subst call
      simp [replacesNothing, before] at steady
    · rcases entries id t after with ⟨s, before, count, _⟩ | ⟨count, _, registers⟩
      · rw [count, balanced.counts id s before]
      · -- The source was never registered before, so nothing was told of it.
        have absent := unregistered_of_registers steady registers
        have none : told.filter (·.source == id) = [] := by
          rw [List.filter_eq_nil_iff]
          intro u member same
          obtain ⟨s, before⟩ := balanced.registered u member
          rw [beq_iff_eq.1 same, absent] at before
          cases before
        rw [count, none, List.length_nil]

theorem Attested.after (governed : a.Governed) (attested : Attested table policy told a)
    (later : List Incident) : ∃ all, Attested table policy all (a.afterAll later) ∧
      (Balanced told a → a.isSteady later = true → Balanced all (a.afterAll later)) := by
  induction later generalizing a told with
  | nil => exact ⟨told, attested, fun balanced _ => balanced⟩
  | cons i later ih =>
    obtain ⟨more, progress⟩ := (governed.deed i).progress governed.filed
    obtain ⟨all, attestedLater, rest⟩ := ih (governed.incur i) (attested.progress progress)
    refine ⟨all, attestedLater, fun balanced steady => ?_⟩
    obtain ⟨now, onward⟩ := Bool.and_eq_true_iff.1 steady
    exact rest (balanced.progress progress now) onward

/-! ## Snapshots -/

namespace Attested

variable (attested : Attested table policy told a)
include attested

theorem valid : a.engine.store.Valid := by
  rw [attested.engine.store]
  exact (Engine.appliedAll_reachable (Engine.Built.new table policy).reachable told).valid

/-- Flags and positions apart, the store is that of the headers. -/
theorem refines : a.engine.store.plain.Refines told := by
  -- Headers without a hash would be left out, but none of these was applied.
  have admitted : BlockStore.admitted told = told :=
    List.filter_eq_self.2 fun t member => by simp [attested.named t member]
  have refines := (BlockStore.refines_new table policy).insertAll told
  rw [admitted, List.nil_append, ← Engine.appliedAll_new_plain, ← attested.engine.store] at refines
  exact refines

theorem consistent (filed : a.Filed) : a.snapshot.Consistent where
  nodes := attested.valid.hashes_nodup
  edges e member := by
    obtain ⟨parent, child⟩ := attested.valid.edge_ends member
    exact ⟨List.mem_map.1 parent, List.mem_map.1 child⟩
  sources := by
    have ids : a.snapshot.sources.map (·.id) = a.sources.keys := by
      rw [← values_ids filed]
      exact List.map_map
    rw [ids]
    exact a.sources.keys_ascending
  latest status member hash hashes := by
    obtain ⟨s, listed, rfl⟩ := List.mem_map.1 member
    obtain ⟨t, told, source, rfl⟩ := attested.latest s.id s ((mem_values filed).1 listed) hash hashes
    obtain ⟨b, stored, named, reported⟩ := attested.refines.reported told
    obtain ⟨c, here, rfl⟩ := List.mem_map.1 stored
    rw [source] at reported
    exact ⟨c, here, named, reported⟩
  counted status member := by
    obtain ⟨s, listed, rfl⟩ := List.mem_map.1 member
    exact attested.counted s.id s ((mem_values filed).1 listed)

theorem accounted (filed : a.Filed) (balanced : Balanced told a) : a.snapshot.Accounted where
  listed b stored id reports := by
    have sources := attested.refines.reporters (List.mem_map_of_mem (f := Block.plain) stored)
    have reported : SortedMap.contains (Reference.sources told b.hash) id = true := sources ▸ reports
    obtain ⟨t, member, _, rfl⟩ := BlockStore.contains_sources.1 reported
    obtain ⟨s, found⟩ := balanced.registered t member
    have own := filed t.source s found
    refine ⟨s.status, List.mem_map_of_mem ((mem_values filed).2 (own ▸ found)), own, ?_⟩
    show 0 < s.observedCount
    rw [balanced.counts t.source s found, List.length_pos_iff_exists_mem]
    exact ⟨t, List.mem_filter.2 ⟨member, beq_self_eq_true _⟩⟩
  total := by
    have reports : total (fun b => b.reportingSources.size) a.snapshot.nodes ≤ told.length := by
      have plain := attested.refines.total_reports
      rwa [BlockStore.plain, total_map] at plain
    have counted : told.length ≤ total (·.observedCount) a.snapshot.sources := by
      -- Each header is counted for its source, and all of these are listed.
      have covered := le_count_covering (·.source) a.sources.keys told fun t member => by
        obtain ⟨s, found⟩ := balanced.registered t member
        rw [SortedMap.mem_keys, found]
        rfl
      rw [← values_ids filed, total_map] at covered
      refine Nat.le_trans covered ?_
      rw [snapshot, statuses, total_map]
      refine total_mono fun s listed => Nat.le_of_eq ?_
      exact (balanced.counts s.id s ((mem_values filed).1 listed)).symm
    exact Nat.le_trans reports counted

end Attested

/-- Around any feed, and whatever happens in whatever order. -/
theorem afterAll_snapshot (settings : Settings) (feed : Feed) (incidents : List Incident) :
    ((new settings feed).afterAll incidents).snapshot.Consistent ∧
      ((new settings feed).isSteady incidents = true →
        ((new settings feed).afterAll incidents).snapshot.Accounted) := by
  have governed : (new settings feed).Governed := .ofEngine ..
  have attested : Attested settings.table settings.policy [] (new settings feed) :=
    ⟨.refl _, fun _ member => (nomatch member), fun _ _ found => (nomatch found),
      fun _ _ found => nomatch found⟩
  have balanced : Balanced [] (new settings feed) :=
    ⟨fun _ member => (nomatch member), fun _ _ found => nomatch found⟩
  obtain ⟨told, attestedNow, rest⟩ := attested.after governed incidents
  have filed := (governed.after incidents).filed
  exact ⟨attestedNow.consistent filed, fun steady => attestedNow.accounted filed (rest balanced steady)⟩

/-- Two sources report a block, one of them twice, and the other one reports a second block. -/
theorem afterAll_snapshot_shared :
    let feed : Feed := .channel (.new 4)
    let incidents : List Incident :=
      [.move (.add "a"), .enter "b", .move (.onHeader "a" (.new 1 "0x1" "0x0")),
        .move (.onHeader "b" (.new 1 "0x1" "0x0")), .join "b" 2 0,
        .move (.onHeader "a" (.new 1 "0x1" "0x0")), .move (.onHeader "b" (.new 2 "0x2" "0x1"))]
    let s := ((new .standard feed).afterAll incidents).snapshot
    (new .standard feed).isSteady incidents = true ∧ s.Consistent ∧ s.Accounted ∧
      total (fun b => b.reportingSources.size) s.nodes = 3 ∧ total (·.observedCount) s.sources = 4 := by
  intro feed incidents s
  have steady : (new .standard feed).isSteady incidents = true := by decide +kernel
  obtain ⟨consistent, accounted⟩ := afterAll_snapshot .standard feed incidents
  exact ⟨steady, consistent, accounted steady, by decide +kernel⟩

end Aggregator

end BlockGraph
