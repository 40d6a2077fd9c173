import BlockGraph.Command
import BlockGraph.Files.Disk
import BlockGraph.Proofs.Aggregator.Listening

/-!
# What commands write

The two commands that play recordings, on a disk. Both read the configuration, begin the log, and open
all recordings as the disk then is; so they play the same run, and what they write to the standard
output is what the run gives. With a queue that cannot be made, both end before that.

* `Command.after` — what an action does to a report and to a disk.
* `Config.openOn` — the recordings of a configuration as they open on a disk.
* `startFeeds_run`, `finishFeeds_run` — the run that is played.
* `run_watch`, `run_snapshot` — what the commands write.
* `run_crashed` — the queue is too large.
-/

namespace BlockGraph

/-- The file of a recording. -/
def Config.pathOf (feed : String) : String := (Path.splitFileMarker (Text.trim feed)).2

/-- How the recordings of a configuration open on a disk. -/
def Config.openOn (c : Config) (d : Disk) (path : String) : Except OsError Contents :=
  if path ∈ c.feedList.map pathOf then d.openFile path else .error .notFound

namespace Command

variable {α β : Type}

/-- What an action does to a report and to a disk. -/
def after (x : Action (StateM Disk) α) (r : Report) (d : Disk) :
    (Except CommandError α × Report) × Disk := (x.run.run r).run d

theorem after_bind (x : Action (StateM Disk) α) (f : α → Action (StateM Disk) β) (r : Report) (d : Disk) :
    after (x >>= f) r d = match after x r d with
      | ((.ok a, r), d) => after (f a) r d
      | ((.error e, r), d) => ((.error e, r), d) := by
  show ((ExceptT.bindCont f (after x r d).1.1).run (after x r d).1.2).run (after x r d).2 = _
  rcases after x r d with ⟨⟨_ | _, _⟩, _⟩ <;> rfl

/-- An action that goes well is followed by the next one. -/
theorem after_bind_ok {x : Action (StateM Disk) α} {f : α → Action (StateM Disk) β} {r s : Report}
    {d e : Disk} {a : α} (well : after x r d = ((.ok a, s), e)) :
    after (x >>= f) r d = after (f a) s e := by
  rw [after_bind, well]

theorem after_quietly (x : ExceptT CommandError (StateM Disk) α) (r : Report) (d : Disk) :
    after (quietly x) r d = (((x.run.run d).1, r), (x.run.run d).2) := rfl

/-! ## Actions that leave the standard output alone -/

/-- An action writes notes at most. -/
def Silent (x : Action (StateM Disk) α) : Prop :=
  ∀ r d, (after x r d).1.2.stdout = r.stdout ∧ (after x r d).1.2.failure = r.failure

theorem Silent.bind {x : Action (StateM Disk) α} {f : α → Action (StateM Disk) β} (first : Silent x)
    (later : ∀ a, Silent (f a)) : Silent (x >>= f) := by
  intro r d
  have before := first r d
  rw [after_bind]
  rcases result : after x r d with ⟨⟨_ | a, s⟩, e⟩
  · rw [result] at before
    exact before
  · rw [result] at before
    have next := later a s e
    exact ⟨next.1.trans before.1, next.2.trans before.2⟩

theorem pure_silent (a : α) : Silent (pure a) := fun _ _ => ⟨rfl, rfl⟩

theorem call_silent (wrap : OsError → CommandError) (action : StateM Disk (Except OsError α)) :
    Silent (call wrap action) := fun _ _ => ⟨rfl, rfl⟩

/-- Lines for the log never end a command. -/
theorem writeLog_well (c : Config) (lines : List LogLine) (r : Report) (d : Disk) :
    ∃ s e, after (writeLog c lines) r d = ((.ok (), s), e) ∧ s.stdout = r.stdout ∧
      s.failure = r.failure := by
  unfold writeLog
  cases logDirectory? c with
  | none => exact ⟨_, _, rfl, rfl, rfl⟩
  | some dir => exact ⟨_, _, rfl, rfl, rfl⟩

theorem startLog_silent (c : Config) : Silent (startLog c) := by
  have log (lines : List LogLine) : Silent (writeLog c lines) := by
    intro r d
    obtain ⟨s, e, well, kept⟩ := writeLog_well c lines r d
    rw [well]
    exact kept
  unfold startLog
  refine Silent.bind (fun _ _ => ⟨rfl, rfl⟩) fun _ => ?_
  cases logDirectory? c with
  | none => exact (pure_silent _).bind fun _ => log _
  | some dir =>
    exact (call_silent _ _).bind fun _ => (call_silent _ _).bind fun _ => (pure_silent _).bind fun _ => log _

/-! ## Recordings -/

theorem after_openings (feeds : List String) (r : Report) (d : Disk) :
    after (feeds.mapM fun feed => do
      let path := ReplayFeed.pathFor ⟨none, fun _ => .error .notFound⟩ (Text.trim feed)
      return (path, ← quietly (ExceptT.lift (FileSystem.openFile (m := StateM Disk) path)))) r d =
      ((.ok (feeds.map fun feed => (Config.pathOf feed, d.openFile (Config.pathOf feed))), r), d) := by
  induction feeds with
  | nil => rfl
  | cons feed feeds ih =>
    rw [List.mapM_cons]
    refine (after_bind_ok (a := (Config.pathOf feed, d.openFile (Config.pathOf feed))) rfl).trans ?_
    refine (after_bind_ok ih).trans ?_
    rfl

/-- What was opened is found again by its path. -/
theorem find?_opened (c : Config) (d : Disk) :
    (fun path => (SortedMap.find? path (c.feedList.map fun feed =>
      (Config.pathOf feed, d.openFile (Config.pathOf feed)))).getD (.error .notFound)) = c.openOn d := by
  funext path
  unfold Config.openOn
  induction c.feedList with
  | nil => rfl
  | cons feed feeds ih =>
    rw [List.map_cons, List.map_cons, SortedMap.find?]
    by_cases here : path = Config.pathOf feed
    · rw [if_pos here, if_pos (here ▸ List.mem_cons_self), here]
      rfl
    · simp only [List.mem_cons, here, false_or]
      exact ih

/-! ## Reading the configuration -/

/-- An action leaves the disk as it is. -/
def Reads (x : ExceptT CommandError (StateM Disk) α) : Prop := ∀ d, (x.run.run d).2 = d

theorem Reads.bind {x : ExceptT CommandError (StateM Disk) α}
    {f : α → ExceptT CommandError (StateM Disk) β} (first : Reads x) (later : ∀ a, Reads (f a)) :
    Reads (x >>= f) := by
  intro d
  show ((ExceptT.bindCont f (x.run.run d).1).run (x.run.run d).2).2 = d
  rw [first d]
  cases (x.run.run d).1 with
  | ok a => exact later a d
  | error e => rfl

theorem load_reads (path : String) : Reads (Config.load path) := by
  refine Reads.bind (fun _ => rfl) fun contents => Reads.bind (fun _ => rfl) fun c => ?_
  split
  · exact Reads.bind (fun _ => rfl) fun _ _ => rfl
  · exact fun _ => rfl

theorem effectiveConfig_reads (o : FeedOptions) : Reads (effectiveConfig o) := by
  unfold effectiveConfig loadConfig
  refine Reads.bind ?_ fun _ _ => rfl
  cases o.config with
  | some path => exact load_reads path
  | none => exact fun _ => rfl

/-- The configuration that a command finds on a disk. -/
def configOn (o : FeedOptions) (d : Disk) : Except CommandError Config :=
  ((effectiveConfig o : ExceptT CommandError (StateM Disk) Config).run.run d).1

theorem after_effectiveConfig (o : FeedOptions) (r : Report) (d : Disk) :
    after (quietly (effectiveConfig o)) r d = ((configOn o d, r), d) := by
  rw [after_quietly, effectiveConfig_reads]
  rfl

/-! ## The commands -/

/-- What both commands begin with: the configuration is read, and the log begins. -/
def prepare (o : FeedOptions) : Action (StateM Disk) Config := do
  let config ← quietly (effectiveConfig o)
  startLog config
  return config

theorem prepare_silent (o : FeedOptions) : Silent (prepare o) :=
  Silent.bind (fun _ _ => ⟨rfl, rfl⟩) fun c => (startLog_silent c).bind fun _ => pure_silent c

theorem prepare_ok {o : FeedOptions} {c : Config} {r s : Report} {d e : Disk}
    (prepared : after (prepare o) r d = ((.ok c, s), e)) :
    after (quietly (effectiveConfig o)) r d = ((.ok c, r), d) ∧
      after (startLog c) r d = ((.ok (), s), e) := by
  unfold prepare at prepared
  rw [after_bind, after_effectiveConfig] at prepared
  rw [after_effectiveConfig]
  cases loaded : configOn o d with
  | error fault =>
    rw [loaded] at prepared
    cases prepared
  | ok config =>
    rw [loaded] at prepared
    dsimp only at prepared
    rw [after_bind] at prepared
    rcases started : after (startLog config) r d with ⟨⟨_ | _, _⟩, _⟩
    · rw [started] at prepared
      cases prepared
    · rw [started] at prepared
      cases prepared
      exact ⟨rfl, started⟩

/-- Without a directory for the log, the disk stays as it is. -/
theorem prepare_unlogged {o : FeedOptions} {c : Config} {d : Disk}
    (loaded : configOn o d = .ok c) (nowhere : logDirectory? c = none)
    (r : Report) : ∃ s, after (prepare o) r d = ((.ok c, s), d) := by
  have read : after (quietly (effectiveConfig o)) r d = ((.ok c, r), d) := by
    rw [after_effectiveConfig, loaded]
  have started : ∃ s, after (startLog c) r d = ((.ok (), s), d) := by
    unfold startLog writeLog
    rw [nowhere]
    exact ⟨_, rfl⟩
  obtain ⟨s, started⟩ := started
  exact ⟨s, (after_bind_ok read).trans ((after_bind_ok started).trans rfl)⟩

/-- What both commands start with a configuration. -/
theorem startFeeds_run {c : Config} {settings : Settings} (fed : c.feedList ≠ [])
    (valid : c.settings = .ok settings) (r : Report) (d : Disk) :
    after (startFeeds c) r d =
      ((match Aggregator.start? settings (.replay ⟨none, c.openOn d⟩ .empty)
          (.new settings.table settings.policy) with
        | some a => .ok (Run.start a c.feedList)
        | none => .error .queueTooLarge, r), d) := by
  have nonempty : c.feedList.isEmpty = false := by simpa using fed
  unfold startFeeds
  rw [nonempty, valid]
  refine (after_bind_ok (a := settings) rfl).trans ?_
  -- All recordings are opened before anything is written, so the log cannot get into one of them.
  refine (after_bind_ok (after_openings c.feedList r d)).trans ?_
  dsimp only
  rw [find?_opened]
  cases Aggregator.start? settings (.replay ⟨none, c.openOn d⟩ .empty)
    (.new settings.table settings.policy) <;> rfl

theorem finishFeeds_run (c : Config) (started : Run) (r : Report) (d : Disk) :
    ∃ s e, after (finishFeeds c started) r d = ((.ok started.finish, s), e) ∧ s.stdout = r.stdout ∧
      s.failure = r.failure := by
  obtain ⟨s, e, well, kept⟩ := writeLog_well c started.finish.logLines r d
  exact ⟨s, e, (after_bind_ok well).trans rfl, kept⟩

/-- What a command reports that carries out an action. -/
theorem run_report (command : Command) {action : Action (StateM Disk) Unit} {d e : Disk} {r : Report}
    {answer : Except CommandError Unit}
    (carries : Command.run command = (do
      let (answer, report) ← action.run.run .empty
      match answer with
      | .ok () => return report
      | .error e => return { report with failure := some e }))
    (ends : after action .empty d = ((answer, r), e)) :
    ((Command.run command : StateM Disk Report).run d).1 =
      match answer with
      | .ok () => r
      | .error fault => { r with failure := some fault } := by
  have result : (action.run.run .empty).run d = ((answer, r), e) := ends
  rw [carries, StateT.run_bind, result]
  cases answer <;> rfl

section
variable {c : Config} {settings : Settings} (fed : c.feedList ≠ []) (valid : c.settings = .ok settings)
  {o : FeedOptions} {r : Report} {d e : Disk}
  (prepared : after (prepare o) .empty d = ((.ok c, r), e))
include fed valid prepared

/-- With a queue that cannot be made, both commands end on the spot. -/
theorem run_crashed (large : Aggregator.queueLimit < settings.queueCapacity) (compact : Bool) :
    ((Command.run (.watch ⟨o, none⟩) : StateM Disk Report).run d).1.failure = some .queueTooLarge ∧
      ((Command.run (.snapshot ⟨o, none, compact⟩) : StateM Disk Report).run d).1.failure =
        some .queueTooLarge := by
  obtain ⟨loaded, started⟩ := prepare_ok prepared
  have crashed : after (startFeeds c) r e = ((.error .queueTooLarge, r), e) := by
    rw [startFeeds_run fed valid, Aggregator.start?, if_neg (Nat.not_le.2 large)]
  have watched : after (runWatch ⟨o, none⟩) .empty d = ((.error .queueTooLarge, r), e) := by
    unfold runWatch
    refine (after_bind_ok loaded).trans ?_
    refine (after_bind_ok started).trans ?_
    exact (after_bind ..).trans (by rw [crashed])
  have taken : after (runSnapshot ⟨o, none, compact⟩) .empty d = ((.error .queueTooLarge, r), e) := by
    unfold runSnapshot
    refine (after_bind_ok loaded).trans ?_
    refine (after_bind_ok started).trans ?_
    exact (after_bind ..).trans (by rw [crashed])
  rw [run_report (.watch ⟨o, none⟩) rfl watched, run_report (.snapshot ⟨o, none, compact⟩) rfl taken]
  exact ⟨rfl, rfl⟩

variable (fits : settings.queueCapacity ≤ Aggregator.queueLimit)
include fits

omit prepared in
theorem startFeeds_fits (s : Report) (d : Disk) : after (startFeeds c) s d =
    ((.ok (Run.start (.new settings (.replay ⟨none, c.openOn d⟩ .empty)) c.feedList), s), d) := by
  rw [startFeeds_run fed valid, Aggregator.start?, if_pos fits]
  rfl

/-- What is written of the changes of the graph. -/
theorem run_watch :
    let report := ((Command.run (.watch ⟨o, none⟩) : StateM Disk Report).run d).1
    let run := Run.heard settings (c.openOn e) c.feedList writer 0
    report.failure = none ∧ report.stdout = DiffEvent.linesOf (run.received writer) := by
  have silent := prepare_silent o .empty d
  rw [prepared] at silent
  obtain ⟨loaded, started⟩ := prepare_ok prepared
  let first := Run.start (.new settings (.replay ⟨none, c.openOn e⟩ .empty)) c.feedList
  let run := (first.listen writer).finish
  let events := run.received writer
  obtain ⟨s, e₁, played, stdout, failure⟩ := finishFeeds_run c (first.listen writer) r e
  obtain ⟨t, e₂, logged, stdoutToo, failureToo⟩ :=
    writeLog_well c [⟨.watch, .info, s!"Wrote {events.length} events"⟩]
      { s with stdout := s.stdout ++ DiffEvent.linesOf events } e₁
  have whole : after (runWatch ⟨o, none⟩) .empty d =
      ((.ok (), { t with notes := t.notes ++ run.aggregator.summary.lines.map .plain }), e₂) := by
    unfold runWatch
    refine (after_bind_ok loaded).trans ?_
    refine (after_bind_ok started).trans ?_
    refine (after_bind_ok (startFeeds_fits fed valid fits r e)).trans ?_
    refine (after_bind_ok played).trans ?_
    refine (after_bind_ok (a := ()) rfl).trans ?_
    exact (after_bind_ok logged).trans rfl
  dsimp only
  rw [run_report (.watch ⟨o, none⟩) rfl whole]
  refine ⟨failureToo.trans (failure.trans silent.2), stdoutToo.trans ?_⟩
  dsimp only
  rw [stdout, silent.1]
  exact String.empty_append

/-- What is written of the graph. -/
theorem run_snapshot (compact : Bool) :
    let report := ((Command.run (.snapshot ⟨o, none, compact⟩) : StateM Disk Report).run d).1
    let value := Snapshot.codec.write (Run.play settings (c.openOn e) c.feedList).aggregator.snapshot
    report.failure = none ∧
      report.stdout = (if compact then value.compact else value.pretty) ++ "\n" := by
  have silent := prepare_silent o .empty d
  rw [prepared] at silent
  obtain ⟨loaded, started⟩ := prepare_ok prepared
  let first := Run.start (.new settings (.replay ⟨none, c.openOn e⟩ .empty)) c.feedList
  obtain ⟨s, e₁, played, stdout, failure⟩ := finishFeeds_run c first r e
  let value := Snapshot.codec.write first.finish.aggregator.snapshot
  let text := (if compact then value.compact else value.pretty) ++ "\n"
  have whole : after (runSnapshot ⟨o, none, compact⟩) .empty d =
      ((.ok (), { s with stdout := s.stdout ++ text }), e₁) := by
    unfold runSnapshot
    refine (after_bind_ok loaded).trans ?_
    refine (after_bind_ok started).trans ?_
    refine (after_bind_ok (startFeeds_fits fed valid fits r e)).trans ?_
    exact (after_bind_ok played).trans rfl
  dsimp only
  rw [run_report (.snapshot ⟨o, none, compact⟩) rfl whole]
  refine ⟨failure.trans silent.2, ?_⟩
  dsimp only
  rw [stdout, silent.1]
  exact String.empty_append

end

end Command

end BlockGraph
