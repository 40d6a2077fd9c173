import BlockGraph.Proofs.Aggregator.Chronicle

/-!
# Waiting until no source is active

A waiter looks at the number of active sources and waits for the status stream, in turn. Anything may
happen between its steps, also between the moment at which it has seen an active source and the moment
at which it waits. Yet it never waits in vain: the activity of a source does not end without a message,
and a waiter that has missed messages is told so, which makes it look again as well.

* `Waiter.Takes`, `Waiter.wake_rests` — what one step of a waiter can do, and that it wakes until there
  is nothing left for it to do.
* `Waiter.distance` — the steps that are left when no source is active.
* `Governed.told` — as long as nothing is told, a source that is active remains.
* `Alert` — who waits and has heard everything waits for a source; kept by every step of the waiter and
  by every incident.
* `Vigil` — an aggregator and one who waits for it, with their steps in any order.
* `Attended`, `afterAll_attended` — how the waiter fares, whatever happens in whatever order.
-/

namespace BlockGraph

/-! ## The steps of a waiter -/

namespace Waiter

variable {w later : Waiter} {a : Aggregator} {step : WaitStep}

/-- What one step of a waiter can do. -/
inductive Takes (w : Waiter) (a : Aggregator) : Waiter → Prop
  | waits (looking : w.phase = .looking) (active : 0 < a.activeCount) :
      Takes w a { w with phase := .blocked }
  | ends (looking : w.phase = .looking) (idle : a.activeCount = 0) : Takes w a { w with phase := .done }
  | hears (blocked : w.phase = .blocked) (reader : StatusReader) (notice : StatusNotice)
      (next : w.reader.next? a.log = some (reader, notice)) : Takes w a ⟨reader, .looking⟩
  | leaves (blocked : w.phase = .blocked) (down : a.isDown = true) : Takes w a { w with phase := .done }

theorem take?_takes (taken : w.take? a step = some later) : Takes w a later := by
  cases step with
  | look =>
    obtain ⟨looking, same⟩ := Option.ite_none_right_eq_some.1 taken
    obtain rfl := Option.some.inj same
    split
    next idle => exact .ends looking idle
    next active => exact .waits looking (Nat.pos_of_ne_zero active)
  | hear =>
    obtain ⟨blocked, heard⟩ := Option.ite_none_right_eq_some.1 taken
    obtain ⟨⟨reader, notice⟩, next, rfl⟩ := Option.map_eq_some_iff.1 heard
    exact .hears blocked reader notice next
  | leave =>
    obtain ⟨⟨blocked, down⟩, same⟩ := Option.ite_none_right_eq_some.1 taken
    exact Option.some.inj same ▸ .leaves blocked down

theorem exists_take? (stepped : w.step? a = some later) : ∃ step, w.take? a step = some later := by
  obtain ⟨step, _, taken⟩ := List.exists_of_findSome?_eq_some stepped
  exact ⟨step, taken⟩

theorem step?_takes (stepped : w.step? a = some later) : Takes w a later := by
  obtain ⟨step, taken⟩ := exists_take? stepped
  exact take?_takes taken

/-- A waiter has no step to take when it is done, and when it waits and there is nothing that wakes
it. -/
theorem step?_eq_none_iff : w.step? a = none ↔ w.phase = .done ∨
    w.phase = .blocked ∧ w.reader.next? a.log = none ∧ a.isDown = false := by
  rw [step?, List.findSome?_eq_none_iff]
  cases phase : w.phase with
  | looking => simp [take?, phase]
  | done => simp [take?, phase]
  | blocked => simp [take?, phase, and_comm]

/-- Every step leaves fewer of them. -/
theorem Takes.shortens (takes : Takes w a later) : later.stepsLeft a < w.stepsLeft a := by
  cases takes with
  | waits looking | ends looking =>
    simp only [stepsLeft, looking]
    omega
  | leaves blocked =>
    simp only [stepsLeft, blocked]
    omega
  | hears blocked reader notice next =>
    -- To hear a notice and to look again are two steps, and there is a message less to hear.
    obtain ⟨onward, within⟩ := StatusReader.next?_passed next
    simp only [stepsLeft, blocked]
    omega

/-- Anything that every step keeps is kept by any number of steps. -/
theorem stepUpTo_keeps {P : Waiter → Prop} (keeps : ∀ v w, P v → Takes v a w → P w) (holds : P w)
    (n : Nat) : P (stepUpTo a n w) := by
  induction n generalizing w with
  | zero => exact holds
  | succ n ih =>
    rw [stepUpTo]
    cases stepped : w.step? a with
    | none => exact holds
    | some later => exact ih (keeps w later holds (step?_takes stepped))

theorem stepUpTo_rests (n : Nat) (enough : w.stepsLeft a ≤ n) : (stepUpTo a n w).step? a = none := by
  induction n generalizing w with
  | zero =>
    cases stepped : w.step? a with
    | none => exact stepped
    | some later =>
      have shorter := (step?_takes stepped).shortens
      omega
  | succ n ih =>
    rw [stepUpTo]
    cases stepped : w.step? a with
    | none => exact stepped
    | some later =>
      have shorter := (step?_takes stepped).shortens
      exact ih (by omega)

/-- A waiter who wakes has no step left to take. -/
theorem wake_rests (w : Waiter) (a : Aggregator) : (w.wake a).step? a = none :=
  stepUpTo_rests (w.stepsLeft a) (Nat.le_refl _)

/-- The number of steps that are left when no source is active. -/
def distance (w : Waiter) : Nat :=
  match w.phase with
  | .looking => 1
  | .blocked => 2
  | .done => 0

theorem distance_le (w : Waiter) : w.distance ≤ 2 := by
  unfold distance
  split <;> omega

theorem Takes.nearer (takes : Takes w a later) (idle : a.activeCount = 0) :
    later.distance < w.distance := by
  cases takes with
  | waits _ active => omega
  | ends looking => simp [distance, looking]
  | hears blocked | leaves blocked => simp [distance, blocked]

end Waiter

/-! ## The end of the last source is told -/

namespace Aggregator

variable {a : Aggregator}

/-- An incident only adds to what was told; if it adds nothing, a source that is active remains. -/
theorem Governed.told (governed : a.Governed) (i : Incident) : ∃ told,
    (a.incur i).log = a.log ++ told ∧
      (told = [] → 0 < a.activeCount → 0 < (a.incur i).activeCount) := by
  obtain ⟨told, log, _, tells⟩ := (governed.deed i).tells governed.filed
  refine ⟨told.map (·.status), log, fun untold active => ?_⟩
  obtain rfl := List.map_eq_nil_iff.1 untold
  obtain ⟨id, s, found, active⟩ := activeCount_pos_iff.1 active
  -- Of this source nothing is told, so it stays as it is, or is registered anew and is active then.
  cases tells id with
  | silent entry => exact activeCount_pos_iff.2 ⟨id, s, entry ▸ found, active⟩
  | entered _ _ _ _ after => exact activeCount_pos_iff.2 ⟨id, _, after, rfl⟩

end Aggregator

/-! ## Who waits waits for a source -/

namespace Waiter

variable {w later : Waiter} {a : Aggregator}

/-- A waiter who waits and has heard everything waits for a source that is active, as long as the
aggregator is not down. -/
structure Alert (w : Waiter) (a : Aggregator) : Prop where
  within : w.reader.passed ≤ a.log.length
  needed : w.phase = .blocked → w.reader.next? a.log = none → a.isDown = false → 0 < a.activeCount

theorem Alert.start (a : Aggregator) : (start a).Alert a := ⟨Nat.le_refl _, nofun⟩

theorem Alert.takes (alert : w.Alert a) (takes : Takes w a later) : later.Alert a := by
  cases takes with
  | waits _ active => exact ⟨alert.within, fun _ _ _ => active⟩
  | ends | leaves => exact ⟨alert.within, nofun⟩
  | hears _ _ _ next => exact ⟨(StatusReader.next?_passed next).2, nofun⟩

theorem Alert.incur (alert : w.Alert a) (governed : a.Governed) (i : Incident) :
    w.Alert (a.incur i) := by
  obtain ⟨told, log, remains⟩ := governed.told i
  have length : (a.incur i).log.length = a.log.length + told.length := by rw [log, List.length_append]
  have within := alert.within
  refine ⟨by omega, fun blocked silent up => ?_⟩
  -- There is nothing to hear, so nothing was told just now, and there was nothing to hear before.
  have heard := StatusReader.next?_eq_none_iff.1 silent
  have untold : told = [] := List.length_eq_zero_iff.1 (by omega)
  have before : w.reader.next? a.log = none := StatusReader.next?_eq_none_iff.2 (by omega)
  rw [Aggregator.incur_isDown governed.filed] at up
  have upBefore : a.isDown = false := (Bool.or_eq_false_iff.1 up).1
  exact remains untold (alert.needed blocked before upBefore)

/-- A waiter ends because no source is active, as it sees, or since the aggregator is down. -/
theorem Takes.cause (takes : Takes w a later) (done : later.phase = .done) :
    a.activeCount = 0 ∨ a.isDown = true := by
  cases takes with
  | waits | hears => cases done
  | ends _ idle => exact .inl idle
  | leaves _ down => exact .inr down

/-- On an aggregator without an active source, a waiter without a step to take is done. -/
theorem Alert.done_of_rests (alert : w.Alert a) (idle : a.activeCount = 0) (rests : w.step? a = none) :
    w.phase = .done := by
  rcases step?_eq_none_iff.1 rests with done | ⟨blocked, silent, up⟩
  · exact done
  · have active := alert.needed blocked silent up
    omega

theorem Alert.moves (alert : w.Alert a) (idle : a.activeCount = 0) (going : w.isDone = false) :
    ∃ step later, w.take? a step = some later := by
  cases stepped : w.step? a with
  | some later =>
    obtain ⟨step, taken⟩ := exists_take? stepped
    exact ⟨step, later, taken⟩
  | none =>
    rw [isDone, alert.done_of_rests idle stepped] at going
    cases going

theorem Alert.wake (alert : w.Alert a) : (w.wake a).Alert a :=
  stepUpTo_keeps (P := (·.Alert a)) (fun _ _ => Alert.takes) alert _

end Waiter

/-! ## A waiter beside an aggregator -/

/-- What can happen while someone waits. -/
inductive Happening where
  | incident (i : Incident)
  /-- The waiter takes a step, if it can be taken. -/
  | waiter (step : WaitStep)

/-- An aggregator, and one who waits until no source is active. -/
structure Vigil where
  aggregator : Aggregator
  waiter : Waiter

namespace Vigil

variable {v : Vigil} {happenings later : List Happening}

def begin (a : Aggregator) : Vigil := ⟨a, .start a⟩

def next (v : Vigil) : Happening → Vigil
  | .incident i => { v with aggregator := v.aggregator.incur i }
  | .waiter step => { v with waiter := (v.waiter.take? v.aggregator step).getD v.waiter }

def after (v : Vigil) (happenings : List Happening) : Vigil := happenings.foldl next v

/-- No source is active. -/
def IsIdle (v : Vigil) : Prop := v.aggregator.activeCount = 0

/-- The waiter waits, and there is nothing that wakes it: no message, no news that messages are lost,
and not the end of the aggregator. -/
def IsWaiting (v : Vigil) : Prop :=
  v.waiter.phase = .blocked ∧ v.waiter.reader.next? v.aggregator.log = none ∧
    v.aggregator.isDown = false

/-- The number of steps that the waiter takes when something happens. -/
def stepsIn (v : Vigil) : Happening → Nat
  | .incident _ => 0
  | .waiter step => if (v.waiter.take? v.aggregator step).isSome then 1 else 0

/-- The number of steps that the waiter takes in the course of happenings. -/
def stepsTaken (v : Vigil) : List Happening → Nat
  | [] => 0
  | h :: later => v.stepsIn h + (v.next h).stepsTaken later

/-- What holds at any time of an aggregator and a waiter. -/
structure Kept (v : Vigil) : Prop where
  governed : v.aggregator.Governed
  alert : v.waiter.Alert v.aggregator

/-- A step of the waiter is one that it can take, or nothing happens. -/
theorem next_waiter (v : Vigil) (step : WaitStep) :
    (∃ later, v.waiter.take? v.aggregator step = some later ∧
      v.next (.waiter step) = { v with waiter := later }) ∨
    (v.waiter.take? v.aggregator step = none ∧ v.next (.waiter step) = v) := by
  simp only [next]
  cases v.waiter.take? v.aggregator step with
  | none => exact .inr ⟨rfl, rfl⟩
  | some later => exact .inl ⟨later, rfl, rfl⟩

theorem Kept.next (kept : v.Kept) (h : Happening) : (v.next h).Kept := by
  cases h with
  | incident i => exact ⟨kept.governed.incur i, kept.alert.incur kept.governed i⟩
  | waiter step =>
    rcases v.next_waiter step with ⟨later, taken, after⟩ | ⟨_, same⟩
    · rw [after]
      exact ⟨kept.governed, kept.alert.takes (Waiter.take?_takes taken)⟩
    · rwa [same]

theorem Kept.after (kept : v.Kept) (happenings : List Happening) : (v.after happenings).Kept := by
  induction happenings generalizing v with
  | nil => exact kept
  | cons h happenings ih => exact ih (kept.next h)

/-- With whole calls only, no source is active while the aggregator is down. -/
theorem Kept.overtaken (kept : v.Kept) (overrun : (v.after happenings).aggregator.Overtaken) :
    v.aggregator.Overtaken ∨ ∃ i, .incident i ∈ happenings ∧ i.Belated := by
  induction happenings generalizing v with
  | nil => exact .inl overrun
  | cons h happenings ih =>
    rcases ih (kept.next h) overrun with before | ⟨i, later, belated⟩
    · cases h with
      | incident i =>
        refine (kept.governed.incur_overtaken before).imp_right fun belated => ?_
        exact ⟨i, List.mem_cons_self, belated⟩
      | waiter step => exact .inl before
    · exact .inr ⟨i, List.mem_cons_of_mem h later, belated⟩

theorem stepsIn_le (idle : v.IsIdle) (h : Happening) :
    v.stepsIn h + (v.next h).waiter.distance ≤ v.waiter.distance := by
  cases h with
  | incident i => exact Nat.le_of_eq (Nat.zero_add _)
  | waiter step =>
    rcases v.next_waiter step with ⟨later, taken, after⟩ | ⟨rests, same⟩
    · have nearer := (Waiter.take?_takes taken).nearer idle
      simp only [after, stepsIn, taken, Option.isSome_some, if_true]
      omega
    · simp [same, stepsIn, rests]

/-- While no source is active, the waiter takes no more steps than it needs for its end. -/
theorem stepsTaken_le (idle : ∀ front back, later = front ++ back → (v.after front).IsIdle) :
    v.stepsTaken later + (v.after later).waiter.distance ≤ v.waiter.distance := by
  induction later generalizing v with
  | nil => exact Nat.le_of_eq (Nat.zero_add _)
  | cons h later ih =>
    have first := stepsIn_le (idle [] (h :: later) rfl) h
    have rest := ih (v := v.next h) fun front back same => idle (h :: front) back (congrArg _ same)
    calc v.stepsTaken (h :: later) + (v.after (h :: later)).waiter.distance
        = v.stepsIn h + ((v.next h).stepsTaken later + ((v.next h).after later).waiter.distance) :=
          Nat.add_assoc ..
      _ ≤ v.stepsIn h + (v.next h).waiter.distance := Nat.add_le_add_left rest _
      _ ≤ v.waiter.distance := first

/-- A waiter is done because at some time since it began there was no active source, or the aggregator
was down. -/
theorem cause_before (begun : v.waiter.phase ≠ .done)
    (done : (v.after happenings).waiter.phase = .done) :
    ∃ front back, happenings = front ++ back ∧
      ((v.after front).IsIdle ∨ (v.after front).aggregator.isDown = true) := by
  induction happenings generalizing v with
  | nil => exact absurd done begun
  | cons h happenings ih =>
    by_cases ended : (v.next h).waiter.phase = .done
    · refine ⟨[], h :: happenings, rfl, ?_⟩
      cases h with
      | incident i => exact absurd ended begun
      | waiter step =>
        rcases v.next_waiter step with ⟨later, taken, after⟩ | ⟨_, same⟩
        · rw [after] at ended
          exact (Waiter.take?_takes taken).cause ended
        · rw [same] at ended
          exact absurd ended begun
    · obtain ⟨front, back, rfl, cause⟩ := ih ended done
      exact ⟨h :: front, back, rfl, cause⟩

end Vigil

/-! ## No wait is in vain -/

namespace Aggregator

/-- How one fares who begins to wait at an aggregator, after anything has happened. -/
structure Attended (a : Aggregator) (happenings : List Happening) : Prop where
  /-- As long as nothing wakes the waiter, a source is active. -/
  needed : let v := (Vigil.begin a).after happenings
    v.IsWaiting → 0 < v.aggregator.activeCount
  /-- When no source is active, the waiter is done or has a step to take, … -/
  moves : let v := (Vigil.begin a).after happenings
    v.IsIdle → v.waiter.isDone = false → ∃ step later, v.waiter.take? v.aggregator step = some later
  /-- … and it takes two at most, whatever else happens meanwhile. -/
  soon : let v := (Vigil.begin a).after happenings
    ∀ later, (∀ front back, later = front ++ back → (v.after front).IsIdle) → v.stepsTaken later ≤ 2
  returns : let v := (Vigil.begin a).after happenings
    v.IsIdle → (v.waiter.wake v.aggregator).isDone = true
  /-- A waiter is not done without cause. With whole calls only, the cause is that no source was active. -/
  earned : ((Vigil.begin a).after happenings).waiter.isDone = true →
    ∃ front back, happenings = front ++ back ∧ (((Vigil.begin a).after front).IsIdle ∨
      ((Vigil.begin a).after front).aggregator.Overtaken ∧
        (a.Overtaken ∨ ∃ i, .incident i ∈ front ∧ i.Belated))

theorem Governed.attended {a : Aggregator} (governed : a.Governed) (happenings : List Happening) :
    a.Attended happenings := by
  have begun : (Vigil.begin a).Kept := ⟨governed, .start a⟩
  have kept := begun.after happenings
  refine ⟨fun waiting => ?_, fun idle going => ?_, fun later idle => ?_, fun idle => ?_, fun done => ?_⟩
  · exact kept.alert.needed waiting.1 waiting.2.1 waiting.2.2
  · exact kept.alert.moves idle going
  · have few := Vigil.stepsTaken_le idle
    have near := ((Vigil.begin a).after happenings).waiter.distance_le
    omega
  · exact beq_iff_eq.2 (kept.alert.wake.done_of_rests idle (Waiter.wake_rests ..))
  · obtain ⟨front, back, split, cause⟩ := Vigil.cause_before (v := .begin a) nofun (beq_iff_eq.1 done)
    refine ⟨front, back, split, ?_⟩
    by_cases idle : ((Vigil.begin a).after front).IsIdle
    · exact .inl idle
    · have overrun : ((Vigil.begin a).after front).aggregator.Overtaken :=
        ⟨cause.resolve_left idle, Nat.pos_of_ne_zero idle⟩
      exact .inr ⟨overrun, begun.overtaken overrun⟩

/-- Around any feed and any engine: someone begins to wait after any incidents, and then anything
happens in whatever order, steps of the waiter among it. -/
theorem afterAll_attended (settings : Settings) (feed : Feed) (e : Engine) (before : List Incident)
    (happenings : List Happening) :
    ((ofEngine settings feed e).afterAll before).Attended happenings :=
  ((Governed.ofEngine settings feed e).after before).attended happenings

/-- The source is stopped between the look that finds it active and the wait. -/
example :
    let v := (Vigil.begin (.new .standard (.channel (.new 4)))).after
      [.incident (.move (.add "a")), .waiter .look, .incident (.move (.stop "a"))]
    v.waiter.phase = .blocked ∧ v.aggregator.activeCount = 0 ∧
      (v.waiter.wake v.aggregator).isDone = true := by
  decide +kernel

end Aggregator

end BlockGraph
