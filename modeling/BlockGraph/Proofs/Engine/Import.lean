import BlockGraph.Proofs.Engine.Convergence
import BlockGraph.Proofs.Engine.Journal
import BlockGraph.Proofs.Engine.Positions

/-!
# Importing a store

An engine around a store that was gathered from some headers is the engine that has received these
headers one after another, except that it has told nothing of them. Flags and positions that the store
brings along, right or wrong, do not matter.

* `Gathered` — the stores that some insertions lead to, whatever is done to flags and positions.
* `ofStore_streamed` — the engine around such a store has the graph and the lanes of the other one.
* `Twins` — engines that differ at most in what they have told; they go on alike (`Twins.run`).
* `Grown` — the engines in use, whatever they were built around and have received since.
* `imported_streamed` — importing and receiving are the same, now and for all later headers.
-/

namespace BlockGraph

/-! ## Gathered stores -/

namespace BlockStore

variable {table : SealTable} {policy : EdgePolicy} {as : List Announcement} {s : BlockStore}

/-- The stores that some insertions lead to, when flags are recomputed at any heights and any layouts
place blocks or are rebuilt meanwhile. -/
inductive Gathered (table : SealTable) (policy : EdgePolicy) : List Announcement → BlockStore → Prop
  | new : Gathered table policy [] (.new table policy)
  | inserted {as : List Announcement} {s : BlockStore} (a : Announcement) :
      Gathered table policy as s → Gathered table policy (as ++ [a]) (s.inserted a)
  | recomputed {as : List Announcement} {s : BlockStore} (height : UInt64) :
      Gathered table policy as s → Gathered table policy as (s.recomputeCompeting height).1
  | placed {as : List Announcement} {s : BlockStore} (l : Lanes) (hash : String) :
      Gathered table policy as s → Gathered table policy as (l.assignIn s hash).2.1
  | rebuilt {as : List Announcement} {s : BlockStore} :
      Gathered table policy as s → Gathered table policy as (Lanes.assignAll s).2

theorem Gathered.reachable (gathered : Gathered table policy as s) : s.Reachable := by
  induction gathered with
  | new => exact .new table policy
  | inserted a _ ih => exact .inserted a ih
  | recomputed height _ ih => exact .recomputed height ih
  | placed l hash _ ih => exact .placed l hash ih
  | rebuilt _ ih => exact .rebuilt ih

theorem Gathered.plain (gathered : Gathered table policy as s) :
    s.plain = (BlockStore.new table policy).insertAll as := by
  induction gathered with
  | new => rfl
  | inserted a _ ih => rw [inserted_plain, ih, insertAll, insertAll, List.foldl_append]; rfl
  | recomputed height _ ih => rw [recomputeCompeting_plain, ih]
  | placed l hash _ ih => rw [assignIn_plain, ih]
  | rebuilt _ ih => rw [assignAll_plain, ih]

end BlockStore

namespace Engine

open BlockStore

variable {table : SealTable} {policy : EdgePolicy} {as : List Announcement} {s : BlockStore}
  {e f : Engine}

theorem ofStore_plain (s : BlockStore) : (ofStore s).store.plain = s.plain :=
  (assignAll_plain _).trans (recomputeAll_plain ..)

/-! ## Engines with the same graph -/

/-- Engines that differ at most in what they have told. -/
structure Twins (e f : Engine) : Prop where
  store : e.store = f.store
  lanes : e.lanes = f.lanes

theorem Twins.refl (e : Engine) : Twins e e := ⟨rfl, rfl⟩

theorem Twins.trans {g : Engine} (first : Twins e f) (second : Twins f g) : Twins e g :=
  ⟨first.store.trans second.store, first.lanes.trans second.lanes⟩

theorem Built.twins (built : e.Built) (builtToo : f.Built) {as bs : List Announcement}
    (plain : (e.appliedAll as).store.plain = (f.appliedAll bs).store.plain) :
    Twins (e.appliedAll as) (f.appliedAll bs) := by
  -- Flags and positions follow from the heights of the blocks.
  have heights : ∀ s : BlockStore, s.plain.blocks.map (·.height) = s.blocks.map (·.height) := by
    intro s
    simp [BlockStore.plain, Function.comp_def, Block.plain]
  have same : (e.appliedAll as).store.blocks.map (·.height) =
      (f.appliedAll bs).store.blocks.map (·.height) := by rw [← heights, plain, heights]
  obtain ⟨lanes, positions⟩ := (built.appliedAll_laid as).unique (builtToo.appliedAll_laid bs) same
  have flagged := built.appliedAll_flagged as
  exact ⟨flagged.eq_of_plain (builtToo.appliedAll_flagged bs) plain positions, lanes⟩

theorem ofStore_streamed (gathered : Gathered table policy as s) :
    Twins (ofStore s) ((Engine.new table policy).appliedAll as) := by
  have imported : (ofStore s).Built := .ofStore gathered.reachable
  have streamed : (Engine.new table policy).Built := .new table policy
  have plain : ((ofStore s).appliedAll []).store.plain =
      ((Engine.new table policy).appliedAll as).store.plain := by
    rw [appliedAll_new_plain, ← gathered.plain]
    exact ofStore_plain s
  exact imported.twins streamed plain

/-! ## Twins go on alike -/

/-- What the call for a header answers: the events, or why the header is refused. -/
def reply (e : Engine) (a : Announcement) : Except HeaderError (List DiffEvent) :=
  (e.apply a.source a.header).map (·.2)

/-- The answers to the calls for headers, one after another. -/
def replies (e : Engine) : List Announcement → List (Except HeaderError (List DiffEvent))
  | [] => []
  | a :: as => e.reply a :: (e.applied a.source a.header).replies as

theorem Twins.apply (twins : Twins e f) (a : Announcement) :
    e.reply a = f.reply a ∧ Twins (e.applied a.source a.header) (f.applied a.source a.header) := by
  obtain ⟨store, lanes, told⟩ := e
  obtain ⟨_, _, toldToo⟩ := f
  obtain ⟨rfl, rfl⟩ := twins
  unfold reply applied Engine.apply
  cases store.insert a.header a.source with
  | error => exact ⟨rfl, rfl, rfl⟩
  | ok result =>
    obtain ⟨next, insertion⟩ := result
    cases isNew : insertion.isNew with
    | true =>
      simp only [bind, Except.bind, isNew, if_true]
      exact ⟨rfl, rfl, rfl⟩
    | false =>
      simp only [bind, Except.bind, isNew, if_false, Bool.false_eq_true]
      exact ⟨rfl, rfl, rfl⟩

theorem Twins.appliedAll (twins : Twins e f) (as : List Announcement) :
    Twins (e.appliedAll as) (f.appliedAll as) := by
  induction as generalizing e f with
  | nil => exact twins
  | cons a as ih => exact ih (twins.apply a).2

theorem announced_reply (e : Engine) (a : Announcement) :
    e.announced a.source a.header = (e.reply a).toOption.getD [] := by
  unfold announced reply
  cases e.apply a.source a.header <;> rfl

theorem Twins.run (twins : Twins e f) (reachable : e.store.Reachable) (bs : List Announcement) :
    e.replies bs = f.replies bs ∧ Twins (e.appliedAll bs) (f.appliedAll bs) ∧
      ∃ told, (e.appliedAll bs).journal = e.journal ++ told ∧
        (f.appliedAll bs).journal = f.journal ++ told := by
  induction bs generalizing e f with
  | nil => exact ⟨rfl, twins, [], (List.append_nil _).symm, (List.append_nil _).symm⟩
  | cons b bs ih =>
    obtain ⟨reply, next⟩ := twins.apply b
    have valid := reachable.valid
    have validToo : f.store.Valid := twins.store ▸ valid
    obtain ⟨replies, after, told, journal, journalToo⟩ := ih next (applied_reachable reachable)
    refine ⟨by rw [Engine.replies, reply, replies, Engine.replies], after,
      e.announced b.source b.header ++ told, ?_, ?_⟩
    · rw [← List.append_assoc, ← journal_applied valid]
      exact journal
    · rw [announced_reply, reply, ← announced_reply, ← List.append_assoc, ← journal_applied validToo]
      exact journalToo

/-! ## Engines in use -/

/-- An engine that has received some headers since it was built, whoever has listened. -/
def Grown (e : Engine) : Prop :=
  ∃ (start : Engine) (as : List Announcement), start.Built ∧ Twins e (start.appliedAll as)

theorem Built.grown (built : e.Built) : e.Grown := ⟨e, [], built, .refl e⟩

theorem Grown.appliedAll (grown : e.Grown) (as : List Announcement) (twins : Twins f (e.appliedAll as)) :
    f.Grown := by
  obtain ⟨start, before, built, same⟩ := grown
  refine ⟨start, before ++ as, built, ?_⟩
  rw [appliedAll_append]
  exact twins.trans (same.appliedAll as)

theorem Grown.valid (grown : e.Grown) : e.store.Valid := by
  obtain ⟨start, as, built, twins⟩ := grown
  rw [twins.store]
  exact (appliedAll_reachable built.reachable as).valid

theorem Grown.flagged (grown : e.Grown) : e.store.Flagged := by
  obtain ⟨start, as, built, twins⟩ := grown
  rw [twins.store]
  exact built.appliedAll_flagged as

/-! ## Importing and receiving -/

/-- An engine around a store and an engine that has received the headers of the store, one after
another: they have the same graph and the same lanes, now and after any further headers, and answer
these alike. The journal of the second one goes on with that of the first. -/
theorem imported_streamed (gathered : Gathered table policy as s) (bs : List Announcement) :
    let imported := ofStore s
    let streamed := (Engine.new table policy).appliedAll as
    (imported.appliedAll bs).store = (streamed.appliedAll bs).store ∧
      (∀ rank, (imported.appliedAll bs).lanes.lanesAt rank = (streamed.appliedAll bs).lanes.lanesAt rank) ∧
      imported.replies bs = streamed.replies bs ∧
      (streamed.appliedAll bs).journal = streamed.journal ++ (imported.appliedAll bs).journal := by
  intro imported streamed
  have built : imported.Built := .ofStore gathered.reachable
  have twins : Twins imported streamed := ofStore_streamed gathered
  obtain ⟨replies, after, told, journal, journalToo⟩ := twins.run built.reachable bs
  have nothing : imported.journal = [] := built.journal
  refine ⟨after.store, fun rank => by rw [after.lanes], replies, ?_⟩
  rw [journalToo, journal, nothing, List.nil_append]

/-- Two blocks of a height, both placed at lane zero by layouts of their own and neither of them
flagged; then comes the parent that they wait for. -/
theorem imported_streamed_foreign :
    let left : Announcement := ⟨"a", .new 3 "0xa" "0x2"⟩
    let right : Announcement := ⟨"b", .new 3 "0xb" "0x2"⟩
    let parent : Announcement := ⟨"a", .new 2 "0x2" "0x1"⟩
    let placed := (Lanes.new.assignIn ((BlockStore.new .standard .backfill).inserted left) "0xa").2.1
    let store := (Lanes.new.assignIn (placed.inserted right) "0xb").2.1
    let streamed := (Engine.new .standard .backfill).appliedAll [left, right]
    Gathered .standard .backfill [left, right] store ∧
      store.blocks.map (fun b => (b.isCompeting, b.position)) =
        [(false, some ⟨3, 0⟩), (false, some ⟨3, 0⟩)] ∧
      ((ofStore store).appliedAll [parent]).store = (streamed.appliedAll [parent]).store ∧
      (ofStore store).replies [parent] = streamed.replies [parent] := by
  intro left right parent placed store streamed
  have begun : Gathered .standard .backfill [] (BlockStore.new .standard .backfill) := .new
  have first := (begun.inserted left).placed .new "0xa"
  have gathered : Gathered .standard .backfill [left, right] store :=
    (first.inserted right).placed .new "0xb"
  obtain ⟨same, _, replies, _⟩ := imported_streamed gathered [parent]
  exact ⟨gathered, by decide +kernel, same, replies⟩

end Engine

end BlockGraph
