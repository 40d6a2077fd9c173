import BlockGraph.Proofs.Aggregator.Lifecycle

/-!
# The status stream

Whatever becomes of a source is told on the status stream, and nothing else is told there. So the last
status that was told of a source is the one that it has, unless the call that adds it still waits for the
feed; of a source that is gone it is one that is not active; and what is told of one incarnation only
goes on counting, and never takes the end of its activity back.

* `lastTold?`, `chronicle` — what was told last of a source, and everything that was told, each status
  with the generation of its entry.
* `awaiting` — the calls that have registered a source and wait for the feed.
* `Tells`, `Deed.tells` — what is told of one source when something happens.
* `Current`, `Parted`, `Recounted` — three invariants, each kept by every incident.
* `Complete`, `afterAll_complete` — the stream is complete, whatever happens in whatever order.
-/

namespace BlockGraph

/-- A status as it is told, with the generation of the entry that it is told of. -/
structure Telling where
  generation : Nat
  status : SourceStatus
  deriving DecidableEq, Repr

/-- The later of two statuses of one incarnation counts on, and its source is not active again. -/
def SourceStatus.Follows (later earlier : SourceStatus) : Prop :=
  earlier.observedCount ≤ later.observedCount ∧ (later.active = true → earlier.active = true)

namespace SourceStatus

theorem Follows.refl (told : SourceStatus) : told.Follows told := ⟨Nat.le_refl _, fun active => active⟩

theorem Follows.trans {first second third : SourceStatus} (later : third.Follows second)
    (earlier : second.Follows first) : third.Follows first :=
  ⟨Nat.le_trans earlier.1 later.1, earlier.2 ∘ later.2⟩

end SourceStatus

namespace Source

variable {s t : Source} {cap : Option Nat}

theorem deactivate_follows (s : Source) (state : SourceState) :
    (s.deactivate state).status.Follows s.status := by
  unfold deactivate
  split
  · exact ⟨Nat.le_refl _, fun active => nomatch active⟩
  · exact .refl _

theorem deactivate_generation (s : Source) (state : SourceState) :
    (s.deactivate state).generation = s.generation := by
  unfold deactivate
  split <;> rfl

theorem capped_follows (s : Source) (cap : Option Nat) : (s.capped cap).status.Follows s.status := by
  unfold capped
  split
  · exact s.deactivate_follows .capReached
  · exact .refl _

theorem Becomes.follows (becomes : s.Becomes cap t) : t.status.Follows s.status := by
  cases becomes with
  | counted room hash =>
    have counts : (s.record hash).status.Follows s.status := ⟨Nat.le_succ _, fun active => active⟩
    exact ((s.record hash).capped_follows cap).trans counts
  | closed => exact ⟨Nat.le_refl _, fun active => nomatch active⟩

end Source

namespace Aggregator

variable {a b : Aggregator} {i : Incident} {id : String} {s t u : Source} {news : Option Source}
  {past : List Telling}

/-! ## What is told -/

/-- The last status that was told of a source. -/
def lastTold? (a : Aggregator) (id : String) : Option SourceStatus :=
  (a.log.filter (·.id == id)).getLast?

/-- What an incident puts on the status stream. A source that it removes had its generation before. -/
def tells (a : Aggregator) (i : Incident) : List Telling :=
  let entry (id : String) := ((a.incur i).sources.get? id).or (a.sources.get? id)
  ((a.incur i).log.drop a.log.length).map fun status =>
    ⟨((entry status.id).map (·.generation)).getD 0, status⟩

/-- What incidents put on the status stream, one after another. -/
def chronicle (a : Aggregator) : List Incident → List Telling
  | [] => []
  | i :: later => a.tells i ++ (a.incur i).chronicle later

/-- The calls that wait for the feed after an incident, each with the source and the generation that it
has registered. -/
def awaited (a : Aggregator) (waiting : List (String × Nat)) : Incident → List (String × Nat)
  | .enter name =>
    if a.mayEnter name then (Text.trim name, a.lastGeneration + 1) :: waiting else waiting
  | .join id generation _ | .turnAway id generation _ => waiting.filter (· ≠ (id, generation))
  | _ => waiting

/-- The calls that wait for the feed after incidents. -/
def awaiting (a : Aggregator) (waiting : List (String × Nat)) : List Incident → List (String × Nat)
  | [] => waiting
  | i :: later => (a.incur i).awaiting (a.awaited waiting i) later

/-! ## One source of many -/

theorem find?_of_mem {told : List Source} (distinct : (told.map (·.id)).Nodup) (member : t ∈ told) :
    told.find? (·.id == t.id) = some t := by
  induction told with
  | nil => cases member
  | cons s told ih =>
    rw [List.map_cons, List.nodup_cons] at distinct
    rcases List.mem_cons.1 member with rfl | later
    · exact List.find?_cons_of_pos (beq_self_eq_true t.id)
    · have other : s.id ≠ t.id := fun same => distinct.1 (same ▸ List.mem_map_of_mem later)
      rw [List.find?_cons_of_neg (by simpa using other)]
      exact ih distinct.2 later

theorem filter_eq_find? {told : List Source} (distinct : (told.map (·.id)).Nodup) (id : String) :
    told.filter (·.id == id) = (told.find? (·.id == id)).toList := by
  induction told with
  | nil => rfl
  | cons s told ih =>
    rw [List.map_cons, List.nodup_cons] at distinct
    by_cases own : s.id = id
    · subst own
      have none : told.filter (·.id == s.id) = [] := by
        rw [List.filter_eq_nil_iff]
        intro t member same
        exact distinct.1 (beq_iff_eq.1 same ▸ List.mem_map_of_mem member)
      simp [none]
    · simp [own, ih distinct.2]

/-- What is told last of a source, when each source is told of once at most. -/
theorem lastTold?_append {told : List Source} (distinct : (told.map (·.id)).Nodup)
    (log : b.log = a.log ++ told.map (·.status)) (id : String) :
    b.lastTold? id = ((told.find? (·.id == id)).map (·.status)).or (a.lastTold? id) := by
  have own : (told.map (·.status)).filter (·.id == id) = (told.filter (·.id == id)).map (·.status) := by
    rw [List.filter_map]
    rfl
  rw [lastTold?, lastTold?, log, List.filter_append, own, filter_eq_find? distinct, List.getLast?_append]
  cases told.find? (·.id == id) <;> rfl

/-! ## What is told of one source -/

/-- What becomes of one source, and the source as it is told then. -/
inductive Tells (a : Aggregator) (i : Incident) (b : Aggregator) (id : String) : Option Source → Prop
  | silent (entry : b.sources.get? id = a.sources.get? id) : Tells a i b id none
  | retold (s : Source) (before : a.sources.get? id = some s) (after : b.sources.get? id = some s) :
      Tells a i b id (some s)
  | became (s t : Source) (before : a.sources.get? id = some s) (active : s.active = true)
      (becomes : s.Becomes a.settings.eventCap t) (after : b.sources.get? id = some t) :
      Tells a i b id (some t)
  | removed (s : Source) (before : a.sources.get? id = some s) (after : b.sources.get? id = none) :
      Tells a i b id (some (s.deactivate .stopped))
  | added (t : Source) (fresh : t.Fresh id (a.lastGeneration + 1)) (after : b.sources.get? id = some t)
      (last : b.lastGeneration = a.lastGeneration + 1) : Tells a i b id (some t)
  | entered (name : String) (call : i = .enter name) (may : a.mayEnter name = true)
      (own : Text.trim name = id) (after : b.sources.get? id = some (.new id (a.lastGeneration + 1)))
      (last : b.lastGeneration = a.lastGeneration + 1) : Tells a i b id none

/-- Only one source is told of, and only its entry changes. -/
theorem tells_one (others : ∀ id, id ≠ t.id → b.sources.get? id = a.sources.get? id)
    (own : Tells a i b t.id (some t)) (id : String) : Tells a i b id ([t].find? (·.id == id)) := by
  by_cases same : id = t.id
  · subst same
    have heard : [t].find? (·.id == t.id) = some t := List.find?_cons_of_pos (beq_self_eq_true t.id)
    rwa [heard]
  · rw [List.find?_cons_of_neg (by simpa using Ne.symm same)]
    exact .silent (others id same)

theorem Beside.others (rest : Beside (a.setAndPublish t) b) (id : String) (other : id ≠ t.id) :
    b.sources.get? id = a.sources.get? id := (rest.replaced id).trans (if_neg other)

theorem Beside.own (rest : Beside (a.setAndPublish t) b) : b.sources.get? t.id = some t :=
  (rest.replaced t.id).trans (if_pos rfl)

/-- When all sources are stopped, each that was active is told of, and the others stay as they are. -/
theorem stopAll_tells (filed : a.Filed) (order : List String) (rest : Beside (a.stopAll order) b) :
    ∃ told : List Source, b.log = a.log ++ told.map (·.status) ∧ (told.map (·.id)).Nodup ∧
      ∀ id, Tells a i b id (told.find? (·.id == id)) := by
  obtain ⟨told, log, distinct, listed⟩ := stopEach_told filed (order ++ a.sources.keys)
  refine ⟨told, rest.log.trans log, distinct, fun id => ?_⟩
  have entry : b.sources.get? id = (a.sources.get? id).map (·.deactivate .stopped) := by
    rw [rest.sources, get?_stopAll filed]
  by_cases running : ∃ s, a.sources.get? id = some s ∧ s.active = true
  · obtain ⟨s, found, active⟩ := running
    obtain rfl := filed id s found
    have asked : s.id ∈ order ++ a.sources.keys :=
      List.mem_append_right order (SortedMap.mem_keys.2 (Option.isSome_of_mem found))
    have heard := find?_of_mem distinct ((listed _).2 ⟨s, asked, found, active, rfl⟩)
    rw [s.deactivate_id] at heard
    rw [found, Option.map_some] at entry
    rw [heard]
    rw [s.deactivate_of_active active] at entry ⊢
    exact .became s _ found active (.closed .stopped (by simp) (by simp)) entry
  · have unheard : told.find? (·.id == id) = none := by
      rw [List.find?_eq_none]
      intro t member same
      obtain ⟨s, _, found, active, rfl⟩ := (listed t).1 member
      rw [beq_iff_eq, s.deactivate_id] at same
      exact running ⟨s, same ▸ found, active⟩
    rw [unheard]
    refine .silent (entry.trans ?_)
    cases found : a.sources.get? id with
    | none => rfl
    | some s =>
      have idle : s.active = false := Bool.not_eq_true _ ▸ fun active => running ⟨s, found, active⟩
      rw [Option.map_some, s.deactivate_of_idle idle]

/-- What is told when something happens: each source is told of once at most. -/
theorem Deed.tells (filed : a.Filed) (deed : Deed a i b) :
    ∃ told : List Source, b.log = a.log ++ told.map (·.status) ∧ (told.map (·.id)).Nodup ∧
      ∀ id, Tells a i b id (told.find? (·.id == id)) := by
  have single (t : Source) : ([t].map (·.id)).Nodup := by simp
  cases deed with
  | aside rest =>
    refine ⟨[], rest.log.trans (List.append_nil _).symm, .nil, fun id => .silent ?_⟩
    rw [rest.sources]
  | retold s found rest =>
    have same : b.sources = a.sources := rest.sources
    refine ⟨[s], rest.log, single s, tells_one (fun id _ => by rw [same]) ?_⟩
    exact .retold s found (by rw [same, found])
  | counted s header found active room named rest =>
    have becomes := Source.Becomes.counted room header.hash
    refine ⟨[_], rest.log, single _, tells_one rest.others ?_⟩
    exact .became s _ (becomes.incarnation.1 ▸ found) active becomes rest.own
  | closed s state found active idle full rest =>
    refine ⟨[_], rest.log, single _, tells_one rest.others ?_⟩
    exact .became s _ found active (.closed state idle full) rest.own
  | removed s call found rest =>
    have entry (id : String) : b.sources.get? id = if id = s.id then none else a.sources.get? id := by
      rw [rest.sources]
      exact SortedMap.get?_erase ..
    refine ⟨[s.deactivate .stopped], rest.log, single _, tells_one (fun id other => ?_) ?_⟩
    · rw [s.deactivate_id] at other
      exact (entry id).trans (if_neg other)
    · rw [s.deactivate_id]
      exact .removed s found ((entry s.id).trans (if_pos rfl))
  | added id t registers fresh rest =>
    refine ⟨[t], rest.log, single t, tells_one rest.others ?_⟩
    exact .added t (fresh.entry.1.symm ▸ fresh) rest.own rest.lastGeneration
  | entered name call may rest =>
    rw [entered_eq may] at rest
    have entry (id : String) : b.sources.get? id =
        if id = Text.trim name then some (.new (Text.trim name) (a.lastGeneration + 1))
        else a.sources.get? id := by
      rw [rest.sources]
      exact SortedMap.get?_insert ..
    refine ⟨[], rest.log.trans (List.append_nil _).symm, .nil, fun id => ?_⟩
    by_cases own : id = Text.trim name
    · subst own
      exact .entered name call may rfl ((entry _).trans (if_pos rfl)) rest.lastGeneration
    · exact .silent ((entry id).trans (if_neg own))
  | stopped order call rest => exact stopAll_tells filed order rest

/-! ## What was told last -/

/-- The last status that was told of a source is the one that it has, unless the call that adds it still
waits for the feed. -/
def Current (a : Aggregator) (waiting : List (String × Nat)) : Prop :=
  ∀ id s, a.sources.get? id = some s →
    a.lastTold? id = some s.status ∨ (id, s.generation) ∈ waiting ∧ s.active = true

theorem lastTold?_publishStatus (a : Aggregator) (s : Source) :
    (a.publishStatus s).lastTold? s.id = some s.status := by
  have own : (s.status.id == s.id) = true := beq_self_eq_true s.id
  simp [lastTold?, publishStatus, List.filter_append, own]

/-- A call that adds a source goes on waiting, or the status of the source is told. -/
theorem awaited_cases (filed : a.Filed) {waiting : List (String × Nat)} (i : Incident)
    (found : a.sources.get? id = some s) (active : s.active = true)
    (waits : (id, s.generation) ∈ waiting) :
    (id, s.generation) ∈ a.awaited waiting i ∨
      ∃ t, (a.incur i).sources.get? id = some t ∧ (a.incur i).lastTold? id = some t.status := by
  obtain rfl := filed id s found
  -- Only the end of this very call makes a difference.
  have other {ended : String × Nat} (apart : (s.id, s.generation) ≠ ended) :
      (s.id, s.generation) ∈ waiting.filter (· ≠ ended) :=
    List.mem_filter.2 ⟨waits, by simpa using apart⟩
  cases i with
  | move | feed | listen | silence | fall => exact .inl waits
  | enter name =>
    refine .inl ?_
    simp only [awaited]
    split
    · exact List.mem_cons_of_mem _ waits
    · exact waits
  | join id generation line =>
    by_cases own : (s.id, s.generation) = (id, generation)
    · obtain ⟨rfl, rfl⟩ := Prod.mk.inj own
      have after : a.incur (.join s.id s.generation line) = publishStatus
          { a with pumps := a.pumps ++ [⟨s.id, s.generation, line, none, false⟩] } s := by
        simp only [incur, joined, found, if_true]
      rw [after]
      exact .inr ⟨s, found, lastTold?_publishStatus ..⟩
    · exact .inl (other own)
  | turnAway id generation reason =>
    by_cases own : (s.id, s.generation) = (id, generation)
    · obtain ⟨rfl, rfl⟩ := Prod.mk.inj own
      have after : a.incur (.turnAway s.id s.generation reason) =
          a.setAndPublish (s.deactivate (.failed reason)) := by
        simp only [incur, closeSource, found, active, decide_true, Bool.and_self, if_true]
      rw [after, s.deactivate_of_active active]
      refine .inr ⟨_, ?_, lastTold?_publishStatus (a.setSource _) _⟩
      rw [get?_setAndPublish, if_pos rfl]
    · exact .inl (other own)

theorem Current.incur (governed : a.Governed) {waiting : List (String × Nat)}
    (current : a.Current waiting) (i : Incident) : (a.incur i).Current (a.awaited waiting i) := by
  obtain ⟨told, log, distinct, tells⟩ := (governed.deed i).tells governed.filed
  intro id t after
  -- By what becomes of this source: what was told of it and what its entry is go together.
  have last := lastTold?_append distinct log id
  have here := tells id
  generalize told.find? (·.id == id) = news at here last
  cases here with
  | silent entry =>
    have before : a.sources.get? id = some t := entry ▸ after
    rcases current id t before with same | ⟨waits, active⟩
    · exact .inl (last.trans same)
    · rcases awaited_cases governed.filed i before active waits with still | ⟨u, there, heard⟩
      · exact .inr ⟨still, active⟩
      · obtain rfl := Option.some.inj (after.symm.trans there)
        exact .inl heard
  | retold s _ there | became s _ _ _ _ there | added s _ there =>
    obtain rfl := Option.some.inj (after.symm.trans there)
    exact .inl last
  | removed s _ gone =>
    rw [gone] at after
    cases after
  | entered name call may own there =>
    obtain rfl := Option.some.inj (after.symm.trans there)
    subst call own
    refine .inr ⟨?_, rfl⟩
    rw [awaited, if_pos may]
    exact List.mem_cons_self

theorem Current.after (governed : a.Governed) {waiting : List (String × Nat)}
    (current : a.Current waiting) (later : List Incident) :
    (a.afterAll later).Current (a.awaiting waiting later) := by
  induction later generalizing a waiting with
  | nil => exact current
  | cons i later ih => exact ih (governed.incur i) (current.incur governed i)

/-! ## Sources that are gone -/

/-- A source is registered, or the last status that was told of it is not active. -/
def Parted (a : Aggregator) (id : String) : Prop :=
  a.sources.get? id = none → ∃ told, a.lastTold? id = some told ∧ told.active = false

theorem Parted.incur (governed : a.Governed) (parted : a.Parted id) (i : Incident) :
    (a.incur i).Parted id := by
  obtain ⟨told, log, distinct, tells⟩ := (governed.deed i).tells governed.filed
  intro gone
  have last := lastTold?_append distinct log id
  have here := tells id
  generalize told.find? (·.id == id) = news at here last
  cases here with
  | silent entry =>
    obtain ⟨told, same, idle⟩ := parted (entry ▸ gone)
    exact ⟨told, last.trans same, idle⟩
  | retold s _ there | became s _ _ _ _ there | added s _ there | entered _ _ _ _ there =>
    rw [gone] at there
    cases there
  | removed s => exact ⟨_, last, s.deactivate_active .stopped⟩

theorem Parted.after (governed : a.Governed) (parted : a.Parted id) (later : List Incident) :
    (a.afterAll later).Parted id := by
  induction later generalizing a with
  | nil => exact parted
  | cons i later ih => exact ih (governed.incur i) (parted.incur governed i)

/-! ## What is told of one incarnation -/

/-- What was told of an incarnation goes on in the order in which it was told, up to what its entry is
now; of no incarnation that is still to come anything was told. -/
structure Recounted (a : Aggregator) (past : List Telling) : Prop where
  ordered : past.Pairwise fun earlier later => earlier.status.id = later.status.id →
    earlier.generation = later.generation → later.status.Follows earlier.status
  known : ∀ told ∈ past, told.generation ≤ a.lastGeneration
  entry : ∀ id s, a.sources.get? id = some s → ∀ told ∈ past, told.status.id = id →
    told.generation = s.generation → s.status.Follows told.status

/-- What is told of a source, and what its entry is then, goes on from what was told of it. -/
theorem Recounted.follows (recounted : a.Recounted past) (tells : Tells a i b id news) {told : Telling}
    (member : told ∈ past) (own : told.status.id = id)
    (now : news = some u ∨ b.sources.get? id = some u) (generation : told.generation = u.generation) :
    u.status.Follows told.status := by
  have older := recounted.known told member
  -- What is told and what the entry is then are the same source, if both are there.
  have only {t : Source} (heard : news = some t) (there : b.sources.get? id = some t) : u = t :=
    now.elim (fun other => Option.some.inj (other.symm.trans heard))
      fun other => Option.some.inj (other.symm.trans there)
  cases tells with
  | silent entry =>
    have after := now.resolve_left nofun
    exact recounted.entry id u (entry ▸ after) told member own generation
  | retold s before after =>
    exact recounted.entry id u (only rfl after ▸ before) told member own generation
  | became s t before active becomes after =>
    have same := only rfl after
    rw [same, becomes.incarnation.2] at generation
    rw [same]
    exact becomes.follows.trans (recounted.entry id s before told member own generation)
  | removed s before gone =>
    have same : u = s.deactivate .stopped := now.elim (fun heard => (Option.some.inj heard).symm)
      fun there => nomatch there.symm.trans gone
    rw [same, s.deactivate_generation] at generation
    rw [same]
    exact (s.deactivate_follows .stopped).trans
      (recounted.entry id s before told member own generation)
  | added t fresh after last =>
    -- Nothing was told of an incarnation before it began.
    have same := only rfl after
    rw [generation, same, fresh.entry.2.1] at older
    exact absurd older (Nat.not_succ_le_self _)
  | entered name call may own after last =>
    have same : u = .new id (a.lastGeneration + 1) :=
      Option.some.inj ((now.resolve_left nofun).symm.trans after)
    rw [generation, same] at older
    exact absurd older (Nat.not_succ_le_self _)

/-- A status is told with the generation of its entry. -/
theorem Tells.generation (tells : Tells a i b id (some t)) :
    (((b.sources.get? id).or (a.sources.get? id)).map (·.generation)).getD 0 = t.generation := by
  cases tells with
  | retold _ _ after | became _ _ _ _ _ after | added _ _ after => rw [after]; rfl
  | removed s before gone =>
    rw [gone, before, s.deactivate_generation]
    rfl

theorem Tells.known (governed : a.Governed) (grows : a.lastGeneration ≤ b.lastGeneration)
    (tells : Tells a i b id (some t)) : t.generation ≤ b.lastGeneration := by
  cases tells with
  | retold s before => exact Nat.le_trans (governed.known id t before) grows
  | became s _ before _ becomes =>
    rw [becomes.incarnation.2]
    exact Nat.le_trans (governed.known id s before) grows
  | removed s before =>
    rw [s.deactivate_generation]
    exact Nat.le_trans (governed.known id s before) grows
  | added _ fresh _ last => exact Nat.le_of_eq (fresh.entry.2.1.trans last.symm)

theorem tells_eq {told : List Source} (log : (a.incur i).log = a.log ++ told.map (·.status))
    (tells : ∀ t ∈ told, Tells a i (a.incur i) t.id (some t)) :
    a.tells i = told.map fun t => ⟨t.generation, t.status⟩ := by
  rw [Aggregator.tells, log, List.drop_left, List.map_map]
  apply List.map_congr_left
  intro t member
  exact congrArg (Telling.mk · t.status) (tells t member).generation

theorem Recounted.incur (governed : a.Governed) (recounted : a.Recounted past) (i : Incident) :
    (a.incur i).Recounted (past ++ a.tells i) ∧
      (a.incur i).log = a.log ++ (a.tells i).map (·.status) := by
  obtain ⟨told, log, distinct, entries⟩ := (governed.deed i).tells governed.filed
  have grows := (governed.effect i).lastGeneration
  have tells (t : Source) (member : t ∈ told) : Tells a i (a.incur i) t.id (some t) :=
    find?_of_mem distinct member ▸ entries t.id
  have tagged := tells_eq log tells
  refine ⟨⟨?_, ?_, ?_⟩, ?_⟩
  · refine List.pairwise_append.2 ⟨recounted.ordered, ?_, ?_⟩
    · -- One incident tells of no source twice.
      rw [tagged, List.pairwise_map]
      rw [List.nodup_iff_pairwise_ne, List.pairwise_map] at distinct
      exact distinct.imp fun apart same => absurd same apart
    · intro earlier old later new own generation
      obtain ⟨t, member, rfl⟩ := List.mem_map.1 (tagged ▸ new)
      exact recounted.follows (tells t member) old own (.inl rfl) generation
  · intro telling member
    rcases List.mem_append.1 member with old | new
    · exact Nat.le_trans (recounted.known telling old) grows
    · obtain ⟨t, here, rfl⟩ := List.mem_map.1 (tagged ▸ new)
      exact (tells t here).known governed grows
  · intro id s after telling member own generation
    rcases List.mem_append.1 member with old | new
    · exact recounted.follows (entries id) old own (.inr after) generation
    · obtain ⟨t, here, rfl⟩ := List.mem_map.1 (tagged ▸ new)
      obtain rfl : t.id = id := own
      cases tells t here with
      | retold _ _ there | became _ _ _ _ _ there | added _ _ there =>
        exact Option.some.inj (after.symm.trans there) ▸ .refl _
      | removed _ _ gone =>
        rw [gone] at after
        cases after
  · rw [log, tagged, List.map_map]
    rfl

theorem Recounted.after (governed : a.Governed) (recounted : a.Recounted past) (later : List Incident) :
    (a.afterAll later).Recounted (past ++ a.chronicle later) ∧
      (a.afterAll later).log = a.log ++ (a.chronicle later).map (·.status) := by
  induction later generalizing a past with
  | nil => exact ⟨(List.append_nil past).symm ▸ recounted, (List.append_nil _).symm⟩
  | cons i later ih =>
    obtain ⟨next, log⟩ := recounted.incur governed i
    obtain ⟨rest, logToo⟩ := ih (governed.incur i) next
    refine ⟨?_, ?_⟩
    · rw [chronicle, ← List.append_assoc]
      exact rest
    · refine logToo.trans ?_
      rw [log, chronicle, List.map_append, List.append_assoc]

/-! ## The whole stream -/

/-- What the status stream has told after incidents. -/
structure Complete (a : Aggregator) (incidents : List Incident) : Prop where
  all : (a.afterAll incidents).log = (a.chronicle incidents).map (·.status)
  /-- Unless the call that has added the entry still waits for the feed. -/
  current : ∀ id s, (a.afterAll incidents).sources.get? id = some s →
    (id, s.generation) ∉ a.awaiting [] incidents →
      (a.afterAll incidents).lastTold? id = (a.afterAll incidents).status? id
  parted : ∀ front back id s, incidents = front ++ back → (a.afterAll front).sources.get? id = some s →
    (a.afterAll incidents).sources.get? id = none →
      ∃ told, (a.afterAll incidents).lastTold? id = some told ∧ told.active = false
  onward : (a.chronicle incidents).Pairwise fun earlier later => earlier.status.id = later.status.id →
    earlier.generation = later.generation → later.status.Follows earlier.status

theorem afterAll_append (a : Aggregator) (front back : List Incident) :
    a.afterAll (front ++ back) = (a.afterAll front).afterAll back := List.foldl_append

/-- Around any feed and any engine, and whatever happens in whatever order. -/
theorem afterAll_complete (settings : Settings) (feed : Feed) (e : Engine) (incidents : List Incident) :
    (ofEngine settings feed e).Complete incidents := by
  have governed := Governed.ofEngine settings feed e
  have untold : (ofEngine settings feed e).Recounted [] :=
    ⟨.nil, fun _ member => (nomatch member), fun _ _ found => nomatch found⟩
  have unregistered : (ofEngine settings feed e).Current [] := fun _ _ found => nomatch found
  obtain ⟨recounted, log⟩ := untold.after governed incidents
  refine ⟨log, fun id s found settled => ?_, ?_, recounted.ordered⟩
  · rw [status?, found]
    exact (unregistered.after governed incidents id s found).resolve_right fun waits => settled waits.1
  · rintro front back id s rfl found gone
    rw [afterAll_append] at gone ⊢
    have parted : ((ofEngine settings feed e).afterAll front).Parted id := fun gone => by
      rw [found] at gone
      cases gone
    exact parted.after (governed.after front) back gone

/-- A source is removed while the call that adds it still waits for the feed. -/
example : (new .standard (.channel (.new 4))).chronicle
    [.enter "a", .move (.onHeader "a" (.new 1 "0x1" "0x0")), .move (.remove "a"), .join "a" 1 0] =
      [⟨1, ⟨"a", true, 1, some "0x1", .running⟩⟩, ⟨1, ⟨"a", false, 1, some "0x1", .stopped⟩⟩] := by
  decide +kernel

end Aggregator

end BlockGraph
