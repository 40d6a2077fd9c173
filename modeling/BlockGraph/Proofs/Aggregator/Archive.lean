import BlockGraph.Proofs.Aggregator.Delivery
import BlockGraph.Proofs.Aggregator.Incidents
import BlockGraph.Proofs.Engine.Import
import BlockGraph.Proofs.Wire.Run
import BlockGraph.Proofs.Wire.Snapshot

/-!
# Snapshots that are kept

The blocks of a snapshot are those of the headers that were applied. So a snapshot is read back from its
text if these headers were accepted when they were read, with integers of 64 bits for numbers in their
digests; but entries of a digest lie one level deeper in a snapshot than in a header, so those that just
fit in a header are too deep for it.

* `Engine.Stems` — engines that have received headers with a property, or were built around them.
* `Aggregator.applies`, `Aggregator.appliedOver`, `afterAll_twins` — the headers that incidents apply.
* `Stems.portable` — what the headers give for the blocks.
* `snapshot_reads_back` — the snapshot of any run.
-/

namespace BlockGraph

open Occurrence

/-! ## Engines -/

namespace Engine

variable {table : SealTable} {policy : EdgePolicy} {P : Header → Prop} {e f : Engine}
  {as bs : List Announcement} {b : Block}

/-- The graph of an engine is that of some headers with a property. -/
def Stems (P : Header → Prop) (table : SealTable) (e : Engine) : Prop :=
  ∃ policy as, Twins e ((Engine.new table policy).appliedAll as) ∧ ∀ a ∈ as, P a.header

theorem Stems.new (P : Header → Prop) (table : SealTable) (policy : EdgePolicy) :
    (Engine.new table policy).Stems P table :=
  ⟨policy, [], .refl _, fun _ member => nomatch member⟩

theorem Stems.ofStore {s : BlockStore} (gathered : BlockStore.Gathered table policy as s)
    (each : ∀ a ∈ as, P a.header) : (ofStore s).Stems P table :=
  ⟨policy, as, ofStore_streamed gathered, each⟩

theorem Stems.appliedAll (stems : e.Stems P table) (twins : Twins f (e.appliedAll bs))
    (each : ∀ b ∈ bs, P b.header) : f.Stems P table := by
  obtain ⟨policy, as, same, before⟩ := stems
  refine ⟨policy, as ++ bs, ?_, fun a member => ?_⟩
  · rw [appliedAll_append]
    exact twins.trans (same.appliedAll bs)
  · rcases List.mem_append.1 member with old | new
    · exact before a old
    · exact each a new

/-- Every block carries the digest of a header, and the group that the table gives this header. -/
theorem appliedAll_block (stored : b ∈ ((Engine.new table policy).appliedAll as).store.blocks) :
    ∃ a ∈ as, b.sealBytes = a.header.digest.logs ∧ b.group = table.classify a.header := by
  obtain ⟨header, first, same⟩ := mem_appliedAll_blocks.1 (List.mem_map_of_mem stored)
  obtain ⟨a, found, rfl⟩ := Option.map_eq_some_iff.1 (Reference.mem_firsts.1 first)
  exact ⟨a, (List.mem_filter.1 (List.mem_of_find?_eq_some found)).1,
    congrArg Block.sealBytes same.symm, congrArg Block.group same.symm⟩

/-- What is needed of the blocks so that they are read back. -/
theorem Stems.portable (stems : e.Stems Header.Plain table) (made : table.Made)
    (few : e.store.blocks.length ≤ Text.maxWord + 1) : ∀ b ∈ e.store.blocks, b.Portable := by
  obtain ⟨policy, as, twins, plain⟩ := stems
  intro b stored
  have valid : e.store.Valid := by
    rw [twins.store]
    exact (appliedAll_reachable (Built.new table policy).reachable as).valid
  have place := valid.firstSeenAt_lt stored
  rw [valid.counted] at place
  rw [twins.store] at stored
  obtain ⟨a, listed, digest, group⟩ := appliedAll_block stored
  exact (plain a listed).portable made digest group (by omega)

end Engine

namespace Aggregator

/-! ## The headers of a run -/

/-- What an incident applies to the graph. -/
def applies (a : Aggregator) : Incident → List Announcement
  | .move m => allAccepted (a.occurs? m).toList
  | _ => []

/-- All headers that are applied over incidents, one after another. -/
def appliedOver (a : Aggregator) : List Incident → List Announcement
  | [] => []
  | i :: later => a.applies i ++ (a.incur i).appliedOver later

theorem incur_twins (a : Aggregator) (i : Incident) :
    Engine.Twins (a.incur i).engine (a.engine.appliedAll (a.applies i)) := by
  cases i with
  | move m =>
    show Engine.Twins (a.act m).engine _
    rw [act_engine]
    exact .refl _
  | feed | listen => exact ⟨rfl, rfl⟩
  | enter name =>
    show Engine.Twins (a.entered name).engine a.engine
    unfold entered
    split <;> exact .refl _
  | join id generation line =>
    show Engine.Twins (a.joined id generation line).engine a.engine
    unfold joined
    dsimp only
    split
    · split <;> exact .refl _
    · exact .refl _
  | turnAway id generation reason =>
    show Engine.Twins (a.closeSource id generation (.failed reason)).engine a.engine
    rw [closeSource_engine]
    exact .refl _
  | silence order =>
    show Engine.Twins (a.stopAll order).engine a.engine
    rw [stopAll_engine]
    exact .refl _
  | fall => exact .refl _

theorem afterAll_twins (a : Aggregator) (incidents : List Incident) :
    Engine.Twins (a.afterAll incidents).engine (a.engine.appliedAll (a.appliedOver incidents)) := by
  induction incidents generalizing a with
  | nil => exact .refl _
  | cons i later ih =>
    rw [appliedOver, Engine.appliedAll_append]
    exact (ih (a.incur i)).trans ((a.incur_twins i).appliedAll _)

theorem afterAll_grown {a : Aggregator} (grown : a.engine.Grown) (incidents : List Incident) :
    (a.afterAll incidents).engine.Grown :=
  grown.appliedAll (a.appliedOver incidents) (a.afterAll_twins incidents)

/-! ## Snapshots of runs -/

variable {settings : Settings} {feed : Feed} {table : SealTable} {e : Engine} {incidents : List Incident}

theorem afterAll_portable (made : table.Made) (stems : e.Stems Header.Plain table)
    (plain : ∀ t ∈ (ofEngine settings feed e).appliedOver incidents, t.header.Plain) :
    let s := ((ofEngine settings feed e).afterAll incidents).snapshot
    s.nodes.length ≤ Text.maxWord + 1 → (∀ status ∈ s.sources, status.observedCount ≤ Text.maxWord) →
      s.Portable := by
  intro s few counts
  have grown : ((ofEngine settings feed e).afterAll incidents).engine.Stems Header.Plain table :=
    stems.appliedAll (afterAll_twins _ incidents) plain
  exact ⟨grown.portable made few, counts⟩

/-- Around any feed and an engine of headers that were accepted, whatever happens in whatever order, as
long as the headers that are applied were accepted: from its text, on one line or indented, with or
without a newline behind it, the snapshot is read back just when it is shallow. Numbers in digests are
integers of 64 bits, and so are the numbers of arrivals and the counts of the sources. -/
theorem snapshot_reads_back (made : table.Made) (stems : e.Stems Header.Plain table)
    (plain : ∀ t ∈ (ofEngine settings feed e).appliedOver incidents, t.header.Plain) :
    let s := ((ofEngine settings feed e).afterAll incidents).snapshot
    s.nodes.length ≤ Text.maxWord + 1 → (∀ status ∈ s.sources, status.observedCount ≤ Text.maxWord) →
      ∀ compact, (Snapshot.codec.decode (s.text compact) = .ok s ↔ s.Shallow) ∧
        (Snapshot.codec.decode (s.text compact ++ "\n") = .ok s ↔ s.Shallow) := by
  intro s few counts compact
  exact Snapshot.decode_text (afterAll_portable made stems plain few counts) compact

/-- An engine around a store with one block; a source that the feed refuses, and one that is stopped after
a header with nested entries. -/
theorem snapshot_reads_back_stopped :
    let text := "\x7b\"number\":2,\"hash\":\"0x\\u00e9\\n\",\"parentHash\":\"0x1\",\"digest\":\x7b\"logs\":" ++
      "[\x7b\"seal\":[\"\",\"2A\"]\x7d,[[-9223372036854775808,18446744073709551615],-0,\x7b\x7d]]\x7d\x7d"
    let header : Header := ⟨2, "0xé\n", "0x1", "", "",
      ⟨[.obj [("seal", .strings ["", "2A"])],
        .arr [.arr [.num (.int (-9223372036854775808)), .nat 18446744073709551615],
          .num (.real (Binary64.ofNat 0).neg), .obj []]]⟩⟩
    let stored : Announcement := ⟨"b", .new 1 "0x1" "0x0"⟩
    let engine := Engine.ofStore ((BlockStore.new .standard .childOnly).inserted stored)
    let incidents : List Incident :=
      [.move (.refuse "ü"), .move (.add " ü "), .move (.add "a"), .move (.onHeader "a" header),
        .move (.stop "a")]
    let s := ((ofEngine .standard (.channel (.new 4)) engine).afterAll incidents).snapshot
    Header.ofText text = .ok header ∧ s.nodes.map (·.sealBytes) = [[], header.digest.logs] ∧
      s.edges = [⟨"0x1", "0xé\n"⟩] ∧
      s.sources.map (·.state) = [.stopped, .failed "Source not available: ü"] ∧
      ∀ compact, Snapshot.codec.decode (s.text compact) = .ok s ∧
        Snapshot.codec.decode (s.text compact ++ "\n") = .ok s := by
  intro text header stored engine incidents s
  have read : Header.ofText text = .ok header := Header.ofText_eq_ok (by decide +kernel)
  have plain : header.Plain := ⟨⟨text, read⟩, by decide +kernel⟩
  have readStored : Header.ofText (Header.codec.encode stored.header) = .ok stored.header :=
    Header.ofText_eq_ok (by decide +kernel)
  have stems : engine.Stems Header.Plain .standard := by
    refine .ofStore (.inserted stored .new) fun t member => ?_
    rw [List.mem_singleton.1 member]
    exact ⟨⟨_, readStored⟩, by decide +kernel⟩
  have applied : (ofEngine .standard (.channel (.new 4)) engine).appliedOver incidents =
      [⟨"a", header⟩] := by decide +kernel
  have shallow : s.Shallow := by decide +kernel
  have result := snapshot_reads_back .standard stems
    (fun t member => by rw [applied] at member; exact List.mem_singleton.1 member ▸ plain)
    (by decide +kernel) (by decide +kernel)
  exact ⟨read, by decide +kernel, by decide +kernel, by decide +kernel,
    fun compact => ⟨(result compact).1.2 shallow, (result compact).2.2 shallow⟩⟩

/-- An entry of 124 levels just fits in a header, and is too deep for a snapshot; and a whole number of
more than 64 bits is kept as a floating-point number, and read back as another one. -/
theorem not_snapshot_reads_back :
    let start := "\x7b\"number\":1,\"hash\":\"0xa\",\"parentHash\":\"0x0\",\"digest\":\x7b\"logs\":["
    let deep := start ++ String.ofList (List.replicate 124 '[' ++ '1' :: List.replicate 124 ']') ++
      "]\x7d\x7d"
    let large := start ++ "91829728565645052638]\x7d\x7d"
    ∀ text ∈ [deep, large], ∃ header, Header.ofText text = .ok header ∧
      Json.allHoldOnly Number.isWhole header.digest.logs = true ∧
      let s := ((new .standard (.channel (.new 4))).afterAll
        [.move (.add "a"), .move (.onHeader "a" header)]).snapshot
      ∀ compact, Snapshot.codec.decode (s.text compact) ≠ .ok s := by
  intro start deep large
  refine List.forall_mem_cons.2 ⟨?_, List.forall_mem_cons.2 ⟨?_, fun _ member => nomatch member⟩⟩
  · let header : Header := ⟨1, "0xa", "0x0", "", "", ⟨[Nat.repeat (fun v => .arr [v]) 124 (.nat 1)]⟩⟩
    have read : Header.ofText deep = .ok header := by
      refine Header.ofText_eq_ok ?_
      -- As characters, so that the evaluation need not go through the bytes of the text.
      simp only [Header.ofText, Codec.decode, Doc.ofText, deep, start, String.toList_append,
        String.toList_ofList]
      decide +kernel
    refine ⟨header, read, by decide +kernel, fun compact again => ?_⟩
    have plain : header.Plain := ⟨⟨deep, read⟩, by decide +kernel⟩
    have applied : (ofEngine .standard (.channel (.new 4)) (.new .standard .childOnly)).appliedOver
        [.move (.add "a"), .move (.onHeader "a" header)] = [⟨"a", header⟩] := by decide +kernel
    have portable := afterAll_portable .standard (.new Header.Plain .standard .childOnly)
      (fun t member => by rw [applied] at member; exact List.mem_singleton.1 member ▸ plain)
      (by decide +kernel) (by decide +kernel)
    exact absurd ((Snapshot.decode_text portable compact).1.1 again) (by decide +kernel)
  · let header : Header := ⟨1, "0xa", "0x0", "", "", ⟨[.num (.real ⟨0x4413e992ee61ff42⟩)]⟩⟩
    have read : Header.ofText large = .ok header := Header.ofText_eq_ok (by decide +kernel)
    refine ⟨header, read, by decide +kernel, fun compact again => ?_⟩
    let s := ((new .standard (.channel (.new 4))).afterAll
      [.move (.add "a"), .move (.onHeader "a" header)]).snapshot
    have other : ∀ compact, (Snapshot.codec.decode (s.text compact)).toOption ≠ some s := by
      simp only [Snapshot.decode_chars]
      decide +kernel
    exact other compact (by rw [again]; rfl)

end Aggregator

end BlockGraph
