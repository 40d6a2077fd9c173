import BlockGraph.Source

/-!
# Status messages

Every change of a source is told on a stream that keeps its latest messages only. A reader who falls
behind is told how many it has missed.

- `StatusReader.read`, `StatusReader.next?`: a reader takes all that the stream holds, or one notice.
- `StatusReader.read_within`: a reader that is not too far behind misses nothing.
- `StatusReader.read_of_next?`, `StatusReader.read_of_none`: who takes all takes one notice after the
  other.
-/

namespace BlockGraph

/-- What a reader of the stream finds. -/
inductive StatusNotice where
  /-- So many messages are lost. -/
  | lagged (count : Nat)
  | status (status : SourceStatus)
  deriving DecidableEq, Repr

/-- The JSON form of what a reader finds. -/
def StatusNotice.toJson : StatusNotice → Json
  | .lagged count => .obj [("lagged", .nat count)]
  | .status told => SourceStatus.codec.write told

/-- A reader of the stream, by the number of messages that it has passed. -/
structure StatusReader where
  passed : Nat
  deriving DecidableEq, Repr

namespace StatusReader

/-- The number of messages that the stream keeps. -/
def kept : Nat := 256

/-- Reads all that the stream holds, given everything that was ever put on it. -/
def read (r : StatusReader) (log : List SourceStatus) : StatusReader × List StatusNotice :=
  let unread := log.drop r.passed
  let missed := unread.length - kept
  let notices := (unread.drop missed).map .status
  (⟨log.length⟩, if missed = 0 then notices else .lagged missed :: notices)

/-- Takes the next notice, if there is one. A reader who is further behind than the stream keeps is
told so, and goes on with the oldest message that is left. -/
def next? (r : StatusReader) (log : List SourceStatus) : Option (StatusReader × StatusNotice) :=
  let missed := log.length - r.passed - kept
  if missed = 0 then log[r.passed]?.map fun told => (⟨r.passed + 1⟩, .status told)
  else some (⟨r.passed + missed⟩, .lagged missed)

variable {r later : StatusReader} {log : List SourceStatus} {notice : StatusNotice}

theorem read_within (r : StatusReader) (log : List SourceStatus)
    (h : log.length - r.passed ≤ kept) :
    (r.read log).2 = (log.drop r.passed).map .status := by
  have : (log.drop r.passed).length - kept = 0 := by rw [List.length_drop]; omega
  simp only [read, this, List.drop_zero, if_true]

theorem next?_eq_none_iff : r.next? log = none ↔ log.length ≤ r.passed := by
  unfold next?
  dsimp only
  split
  next => rw [Option.map_eq_none_iff, List.getElem?_eq_none_iff]
  next behind =>
    simp only [reduceCtorEq, false_iff]
    omega

/-- A notice takes its reader on, and not beyond what was put on the stream. -/
theorem next?_passed (found : r.next? log = some (later, notice)) :
    r.passed < later.passed ∧ later.passed ≤ log.length := by
  unfold next? at found
  dsimp only at found
  split at found
  next =>
    obtain ⟨told, there, same⟩ := Option.map_eq_some_iff.1 found
    obtain ⟨rfl, -⟩ := Prod.mk.inj same
    exact ⟨Nat.lt_succ_self _, (List.getElem?_eq_some_iff.1 there).1⟩
  next behind =>
    obtain ⟨rfl, -⟩ := Prod.mk.inj (Option.some.inj found)
    dsimp only
    omega

theorem read_of_none (silent : r.next? log = none) : r.read log = (⟨log.length⟩, []) := by
  have empty : log.drop r.passed = [] := List.drop_eq_nil_iff.2 (next?_eq_none_iff.1 silent)
  simp [read, empty]

theorem read_of_next? (found : r.next? log = some (later, notice)) :
    r.read log = ((later.read log).1, notice :: (later.read log).2) := by
  refine Prod.ext rfl ?_
  unfold next? at found
  dsimp only at found
  split at found
  next within =>
    obtain ⟨told, there, same⟩ := Option.map_eq_some_iff.1 found
    obtain ⟨rfl, rfl⟩ := Prod.mk.inj same
    obtain ⟨inside, rfl⟩ := List.getElem?_eq_some_iff.1 there
    rw [read_within r log (by omega), read_within ⟨r.passed + 1⟩ log (by dsimp only; omega),
      List.drop_eq_getElem_cons inside, List.map_cons]
  next behind =>
    obtain ⟨rfl, rfl⟩ := Prod.mk.inj (Option.some.inj found)
    rw [read_within ⟨r.passed + _⟩ log (by dsimp only; omega)]
    simp only [read, List.length_drop, behind, if_false, List.drop_drop]

end StatusReader

end BlockGraph
