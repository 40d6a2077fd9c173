import BlockGraph.Proofs.Aggregator.Archive
import BlockGraph.Proofs.Aggregator.Listening
import BlockGraph.Proofs.Command.Output

/-!
# The two outputs of a run

What is written of the changes of the graph and what is written of the graph itself agree: whoever reads
the changes line by line and follows them from nothing has the blocks and edges of the snapshot. No event
is missing, whenever the writer began to listen after the recordings were added.

* `Config.settings_made` — the table of a configuration.
* `outputs_agree` — the two commands, on any disk.
* `snapshot_returned` — what is written of the graph is read back.
-/

namespace BlockGraph

theorem Config.settings_made {c : Config} {settings : Settings} (valid : c.settings = .ok settings) :
    settings.table.Made := by
  unfold Config.settings at valid
  cases read : c.table with
  | error => simp [read, bind, Except.bind] at valid
  | ok table =>
    simp only [read, bind, Except.bind] at valid
    obtain rfl := Except.ok.inj valid
    unfold Config.table at read
    split at read
    · exact .ofEntries read
    · exact Except.ok.inj read ▸ .standard

/-- A property has all numbers in the digests that the recordings of a configuration hold. -/
def Config.NumbersHold (p : Number → Bool) (c : Config) (d : Disk) : Prop :=
  ∀ feed ∈ c.feedList, ∀ contents, d.openFile (pathOf feed) = .ok contents →
    ∀ h, .item (.ok h) ∈ Recording.playContents contents → Json.allHoldOnly p h.digest.logs = true

instance Config.decidableNumbersHold {p : Number → Bool} {c : Config} {d : Disk} :
    Decidable (c.NumbersHold p d) :=
  decidable_of_iff (c.feedList.all fun feed =>
    match d.openFile (pathOf feed) with
    | .error _ => true
    | .ok contents => (Recording.playContents contents).all fun
      | .item (.ok h) => Json.allHoldOnly p h.digest.logs
      | _ => true) <| by
    rw [List.all_eq_true, NumbersHold]
    refine forall₂_congr fun feed _ => ?_
    cases d.openFile (pathOf feed) with
    | error => simp
    | ok contents =>
      rw [List.all_eq_true]
      constructor
      · intro each opened same h played
        obtain rfl := Except.ok.inj same
        exact each _ played
      · intro each event played
        split
        · exact each _ rfl _ played
        · rfl

theorem Config.NumbersHold.holds {c : Config} {d : Disk} (words : c.NumbersHold Number.isWord d) :
    ReplayFeed.Holds ⟨none, c.openOn d⟩ Header.Plain c.feedList := by
  intro feed member events subscribed h played
  have path : (⟨none, c.openOn d⟩ : ReplayFeed).pathFor (Text.trim feed) = pathOf feed := rfl
  have opens : c.openOn d (pathOf feed) = d.openFile (pathOf feed) :=
    if_pos (List.mem_map_of_mem member)
  simp only [ReplayFeed.subscribe, path, opens] at subscribed
  split at subscribed
  next contents opened =>
    obtain rfl := Except.ok.inj subscribed
    exact ⟨Recording.read_of_played played, words feed member contents opened h played⟩
  next => cases subscribed

namespace Command

/-- The commands that write the changes of the graph and the graph itself, with one configuration on one
disk: both go well if the queue can be made, and whoever follows the changes from nothing has the blocks
and the edges of the snapshot, in their order. The recordings are played to their end, and whoever
subscribes when they have been added, at once or later, has all these changes when the run has been shut
down. -/
theorem outputs_agree {o : FeedOptions} {c : Config} {settings : Settings} {r : Report} {d e : Disk}
    (prepared : after (prepare o) .empty d = ((.ok c, r), e)) (fed : c.feedList ≠ [])
    (valid : c.settings = .ok settings) (fits : settings.queueCapacity ≤ Aggregator.queueLimit)
    (words : c.NumbersHold Number.isWord e)
    (few : (Run.play settings (c.openOn e) c.feedList).aggregator.engine.store.blocks.length ≤
      Text.maxWord + 1) (compact : Bool) :
    let watched := ((Command.run (.watch ⟨o, none⟩) : StateM Disk Report).run d).1
    let taken := ((Command.run (.snapshot ⟨o, none, compact⟩) : StateM Disk Report).run d).1
    let run := Run.play settings (c.openOn e) c.feedList
    let snapshot := run.aggregator.snapshot
    let value := Snapshot.codec.write snapshot
    watched.failure = none ∧ taken.failure = none ∧
      taken.stdout = (if compact then value.compact else value.pretty) ++ "\n" ∧
      run.aggregator.step = none ∧
      ∃ events, DiffEvent.ofLines watched.stdout = .ok events ∧
        Graph.replay? ⟨[], []⟩ events = some ⟨snapshot.nodes, snapshot.edges⟩ ∧
        ∀ name steps, (Run.heard settings (c.openOn e) c.feedList name steps).received name = events := by
  intro watched taken run snapshot value
  obtain ⟨watchedWell, lines⟩ := run_watch fed valid prepared fits
  obtain ⟨takenWell, text⟩ := run_snapshot fed valid prepared fits compact
  rw [Run.heard_everything] at lines
  refine ⟨watchedWell, takenWell, text, Run.play_done, run.aggregator.engine.journal, ?_, ?_, ?_⟩
  · -- The headers of the run are from its recordings, so all that is told of them is read back.
    obtain ⟨as, engine, all⟩ := (Run.play_fed settings words.holds).applied
    have built : (Engine.new settings.table settings.policy).Built := .new ..
    have portable := built.journal_portable (Config.settings_made valid) all (engine ▸ few)
    rw [show watched.stdout = DiffEvent.linesOf run.aggregator.engine.journal from lines, engine]
    exact DiffEvent.ofLines_linesOf portable
  · obtain ⟨as, engine, _⟩ := (Run.play_fed settings words.holds).applied
    have built : (Engine.new settings.table settings.policy).Built := .new ..
    show Graph.replay? ⟨[], []⟩ run.aggregator.engine.journal = some run.aggregator.engine.graph
    rw [engine]
    exact Engine.replay?_journal built as
  · exact Run.heard_everything settings (c.openOn e) c.feedList

/-- Four recordings, one of which cannot be opened and one of which is given twice, with a cap of one
header each: the parent of the block that comes first is in the last recording. -/
theorem outputs_agree_capped :
    let first := Text.encode ("\x7b\"number\":2,\"hash\":\"0x2\",\"parentHash\":\"0x1\"\x7d\n" ++
      "\x7b\"number\":3,\"hash\":\"0x3\",\"parentHash\":\"0x2\"\x7d\n")
    let last := Text.encode ("no header\n" ++
      "\x7b\"number\":1,\"hash\":\"0x1\",\"parentHash\":\"0x0\"\x7d\n")
    let d : Disk := ⟨.ofList [("/a", .file first), ("/b", .file last)], []⟩
    let o : FeedOptions := ⟨none, ["a", "gone", "a", " b "], some 1, none, true, none⟩
    let c : Config := o.override .empty
    let settings : Settings := ⟨some 1, 1024, .standard, .backfill⟩
    let watched := ((Command.run (.watch ⟨o, none⟩) : StateM Disk Report).run d).1
    let run := Run.play settings (c.openOn d) c.feedList
    let snapshot := run.aggregator.snapshot
    snapshot.nodes.map (·.hash) = ["0x2", "0x1"] ∧ run.played = ["a", "b"] ∧
      ∃ events, DiffEvent.ofLines watched.stdout = .ok events ∧
        Graph.replay? ⟨[], []⟩ events = some ⟨snapshot.nodes, snapshot.edges⟩ ∧
        ∀ name steps, (Run.heard settings (c.openOn d) c.feedList name steps).received name = events := by
  intro first last d o c settings watched run snapshot
  obtain ⟨r, prepared⟩ : ∃ r, after (prepare o) .empty d = ((.ok c, r), d) :=
    prepare_unlogged rfl rfl .empty
  have fed : c.feedList ≠ [] := by decide
  have valid : c.settings = .ok settings := rfl
  have fits : settings.queueCapacity ≤ Aggregator.queueLimit := by decide
  have words : c.NumbersHold Number.isWord d := by decide +kernel
  have nodes : snapshot.nodes.map (·.hash) = ["0x2", "0x1"] := by decide +kernel
  have played : run.played = ["a", "b"] := by decide +kernel
  -- The run is evaluated here and nowhere below.
  clear_value c settings d o
  have few : run.aggregator.engine.store.blocks.length ≤ Text.maxWord + 1 := by
    have length := congrArg List.length nodes
    rw [List.length_map] at length
    exact Nat.le_trans (Nat.le_of_eq length) (by decide)
  exact ⟨nodes, played, (outputs_agree prepared fed valid fits words few true).2.2.2.2⟩

/-- With a whole number of more than 64 bits in a digest, the block that is read from what is written of
the changes may be another than the one in the snapshot; and with a queue that cannot be made, nothing is
written. -/
theorem not_outputs_agree_large :
    (¬ ∀ {o : FeedOptions} {c : Config} {settings : Settings} {r : Report} {d e : Disk},
      after (prepare o) .empty d = ((.ok c, r), e) → c.feedList ≠ [] → c.settings = .ok settings →
      settings.queueCapacity ≤ Aggregator.queueLimit → c.NumbersHold Number.isWhole e →
      let watched := ((Command.run (.watch ⟨o, none⟩) : StateM Disk Report).run d).1
      let snapshot := (Run.play settings (c.openOn e) c.feedList).aggregator.snapshot
      ∃ events, DiffEvent.ofLines watched.stdout = .ok events ∧
        Graph.replay? ⟨[], []⟩ events = some ⟨snapshot.nodes, snapshot.edges⟩) ∧
    let d : Disk := ⟨.ofList [("/c", .file (Text.encode
      "\x7b\"feeds\":[\"/a\"],\"queue_capacity\":2305843009213693952\x7d"))], []⟩
    let o : FeedOptions := ⟨some "/c", [], none, none, false, none⟩
    ((Command.run (.watch ⟨o, none⟩) : StateM Disk Report).run d).1.failure = some .queueTooLarge ∧
      ((Command.run (.snapshot ⟨o, none, true⟩) : StateM Disk Report).run d).1.failure =
        some .queueTooLarge := by
  refine ⟨fun always => ?_, ?_⟩
  · let content := Text.encode ("\x7b\"number\":1,\"hash\":\"0xa\",\"parentHash\":\"0x0\"," ++
      "\"digest\":\x7b\"logs\":[91829728565645052638]\x7d\x7d\n")
    let d : Disk := ⟨.ofList [("/a", .file content)], []⟩
    let o : FeedOptions := ⟨none, ["a"], none, none, false, none⟩
    let c : Config := o.override .empty
    let settings : Settings := .standard
    let block : Block := ⟨"0xa", "0x0", 1, "", "", [.num (.real ⟨0x4413e992ee61ff42⟩)], .unknown,
      .ofList ["a"], 0, false, some ⟨1, 0⟩⟩
    obtain ⟨r, prepared⟩ : ∃ r, after (prepare o) .empty d = ((.ok c, r), d) :=
      prepare_unlogged rfl rfl .empty
    have fed : c.feedList ≠ [] := by decide
    have valid : c.settings = .ok settings := rfl
    have fits : settings.queueCapacity ≤ Aggregator.queueLimit := by decide
    have whole : c.NumbersHold Number.isWhole d := by decide +kernel
    have run : let a := (Run.play settings (c.openOn d) c.feedList).aggregator
        a.engine.journal = [.nodeAdded block] ∧ a.snapshot.nodes = [block] := by
      decide +kernel
    have other : ((DiffEvent.ofLines (DiffEvent.linesOf [.nodeAdded block])).toOption.bind
        (Graph.replay? ⟨[], []⟩)).map (·.nodes) ≠ some [block] := by
      rw [DiffEvent.ofLines_linesOf_chars]
      decide +kernel
    clear_value c settings d o
    obtain ⟨events, read, followed⟩ := always prepared fed valid fits whole
    rw [(run_watch fed valid prepared fits).2, Run.heard_everything, run.1] at read
    rw [read, show Except.toOption (.ok events) = some events from rfl, Option.bind_some, followed] at other
    exact other (congrArg some run.2)
  · intro d o
    let c : Config :=
      { Config.empty with feeds := some ["/a"], queueCapacity := some 2305843009213693952 }
    let settings : Settings := { Settings.standard with queueCapacity := 2305843009213693952 }
    have loaded : configOn o d = .ok c := by decide +kernel
    have fed : c.feedList ≠ [] := by decide
    have valid : c.settings = .ok settings := rfl
    have large : Aggregator.queueLimit < settings.queueCapacity := by decide
    obtain ⟨r, prepared⟩ := prepare_unlogged loaded rfl .empty
    exact run_crashed fed valid prepared large true

/-- What is written of the graph is read back as its snapshot just when that is shallow. -/
theorem snapshot_returned {o : FeedOptions} {c : Config} {settings : Settings} {r : Report} {d e : Disk}
    (prepared : after (prepare o) .empty d = ((.ok c, r), e)) (fed : c.feedList ≠ [])
    (valid : c.settings = .ok settings) (fits : settings.queueCapacity ≤ Aggregator.queueLimit)
    (words : c.NumbersHold Number.isWord e) (compact : Bool) :
    let taken := ((Command.run (.snapshot ⟨o, none, compact⟩) : StateM Disk Report).run d).1
    let snapshot := (Run.play settings (c.openOn e) c.feedList).aggregator.snapshot
    snapshot.nodes.length ≤ Text.maxWord + 1 →
      (∀ status ∈ snapshot.sources, status.observedCount ≤ Text.maxWord) →
      (Snapshot.codec.decode taken.stdout = .ok snapshot ↔ snapshot.Shallow) := by
  intro taken snapshot few counts
  obtain ⟨as, engine, all⟩ := (Run.play_fed settings words.holds).applied
  have stems : (Run.play settings (c.openOn e) c.feedList).aggregator.engine.Stems Header.Plain
      settings.table := by
    rw [engine]
    exact (Engine.Stems.new Header.Plain settings.table settings.policy).appliedAll (.refl _) all
  have written : taken.stdout = snapshot.text compact ++ "\n" :=
    (run_snapshot fed valid prepared fits compact).2
  rw [written]
  exact (Snapshot.decode_text ⟨stems.portable (Config.settings_made valid) few, counts⟩ compact).2

end Command

end BlockGraph
