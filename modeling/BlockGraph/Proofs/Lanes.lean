import BlockGraph.Proofs.Store.Laid

/-!
# Lanes handed out to any blocks

A layout may be asked to place blocks of which it knows nothing, and some of them bring the positions
of other layouts along. At every rank it counts one lane beyond the highest that it has seen, so a block
without a position never gets one that was handed out before. Only the last lane that can be numbered
has none beyond it, and a call that comes to it does not return.

* `placeAll`, `Exhausts` — placing blocks one after another, and when that comes to the last lane.
* `Counts`, `Counts.place`, `Counts.placeAll` — the count of each rank.
* `placeAll_fresh` — what every call does; `not_placeAll_last` — one that does not return.
-/

namespace BlockGraph.Lanes

variable {l m : Lanes} {handed : List Position} {b : Block} {p : Position}

theorem eq_lastLane_iff {lane : UInt32} : lane = lastLane ↔ lane.toNat + 1 = UInt32.size := by
  rw [← UInt32.toNat_inj]
  have last : lastLane.toNat + 1 = UInt32.size := rfl
  omega

/-- Places blocks one after another, and lists the positions that they get. -/
def placeAll (l : Lanes) : List Block → Option (Lanes × List Position)
  | [] => some (l, [])
  | b :: blocks => do
    let (l, position) ← l.place b
    let (l, positions) ← l.placeAll blocks
    return (l, position :: positions)

/-- A block comes to the last lane behind the positions that were handed out: it brings that lane along,
or it has no position and the last lane but one was handed out at its height. -/
def Exhausts (handed : List Position) (b : Block) : Prop :=
  (∃ rank, b.position = some ⟨rank, lastLane⟩) ∨
    b.position = none ∧ ⟨b.height, lastLane - 1⟩ ∈ handed

/-! ## Placing one block -/

theorem assign_positioned {position : Position} (positioned : b.position = some position) :
    (l.assign b).2 = position := by simp [assign, positioned]

theorem assign_unpositioned (unpositioned : b.position = none) :
    (l.assign b).2 = ⟨b.height, l.lanesAt b.height⟩ := by simp [assign, unpositioned]

theorem place_positioned {position : Position} (positioned : b.position = some position)
    (placed : l.place b = some (m, p)) : p = position := by
  have assigned := (place_eq_some.1 placed).2
  rw [← assign_positioned (l := l) positioned, assigned]

theorem place_unpositioned (unpositioned : b.position = none) (placed : l.place b = some (m, p)) :
    p = ⟨b.height, l.lanesAt b.height⟩ := by
  have assigned := (place_eq_some.1 placed).2
  rw [← assign_unpositioned (l := l) unpositioned, assigned]

theorem place_eq_none_iff : l.place b = none ↔ (l.assign b).2.lane = lastLane := by
  rw [place_eq]
  split <;> simp [*]

theorem toNat_max (a b : UInt32) : (max a b).toNat = max a.toNat b.toNat := by
  show (if a ≤ b then b else a).toNat = _
  split
  next below => exact (Nat.max_eq_right (UInt32.le_iff_toNat_le.1 below)).symm
  next above =>
    rw [UInt32.le_iff_toNat_le] at above
    exact (Nat.max_eq_left (Nat.le_of_not_le above)).symm

theorem toNat_succ {lane : UInt32} (spare : lane ≠ lastLane) : (lane + 1).toNat = lane.toNat + 1 := by
  have below : lane.toNat < UInt32.size := lane.toNat_lt_size
  rw [Ne, eq_lastLane_iff] at spare
  rw [UInt32.toNat_add]
  exact Nat.mod_eq_of_lt (Nat.lt_of_le_of_ne below spare)

/-- A block moves the count of its rank beyond its lane, and no other count. -/
theorem lanesAt_place (placed : l.place b = some (m, p)) (rank : UInt64) :
    (m.lanesAt rank).toNat =
      if rank = p.rank then max (l.lanesAt rank).toNat (p.lane.toNat + 1)
      else (l.lanesAt rank).toNat := by
  obtain ⟨spare, assigned⟩ := place_eq_some.1 placed
  obtain rfl : (l.assign b).1 = m := congrArg Prod.fst assigned
  cases positioned : b.position with
  | some position =>
    obtain rfl := place_positioned positioned placed
    rw [assign_positioned positioned] at spare
    simp only [assign, positioned, lanesAt_insert]
    split
    next own => rw [own, toNat_max, toNat_succ spare]
    next => rfl
  | none =>
    obtain rfl := place_unpositioned positioned placed
    rw [assign_unpositioned positioned] at spare
    simp only [assign, positioned, lanesAt_insert]
    split
    next own => rw [own, toNat_succ spare, Nat.max_eq_right (Nat.le_succ _)]
    next => rfl

/-! ## Placing one block after another -/

/-- The count of each rank is one beyond the highest lane that was handed out there. -/
structure Counts (l : Lanes) (handed : List Position) : Prop where
  above : ∀ p ∈ handed, p.lane.toNat < (l.lanesAt p.rank).toNat
  reached : ∀ rank, l.lanesAt rank = 0 ∨
    ∃ p ∈ handed, p.rank = rank ∧ p.lane.toNat + 1 = (l.lanesAt rank).toNat

theorem Counts.new : Counts .new [] := ⟨fun _ member => (nomatch member), fun _ => .inl rfl⟩

/-- When all calls return, so does the first, and so do those after it. -/
theorem placeAll_cons {blocks : List Block} {n : Lanes} {positions : List Position} :
    l.placeAll (b :: blocks) = some (n, positions) ↔ ∃ m p more, l.place b = some (m, p) ∧
      m.placeAll blocks = some (n, more) ∧ positions = p :: more := by
  constructor
  · intro returned
    obtain ⟨⟨m, p⟩, first, rest⟩ := Option.bind_eq_some_iff.1 returned
    obtain ⟨⟨_, more⟩, later, same⟩ := Option.bind_eq_some_iff.1 rest
    obtain ⟨rfl, rfl⟩ := Prod.mk.inj (Option.some.inj same)
    exact ⟨m, p, more, first, later, rfl⟩
  · rintro ⟨m, p, more, first, rest, rfl⟩
    exact Option.bind_eq_some_iff.2 ⟨_, first, Option.bind_eq_some_iff.2 ⟨_, rest, rfl⟩⟩

theorem placeAll_cons_eq_none {blocks : List Block} (first : l.place b = some (m, p)) :
    l.placeAll (b :: blocks) = none ↔ m.placeAll blocks = none := by
  rw [placeAll, first]
  cases rest : m.placeAll blocks <;> simp [rest]

namespace Counts

theorem place (counts : Counts l handed) (placed : l.place b = some (m, p)) :
    Counts m (handed ++ [p]) where
  above q member := by
    rw [lanesAt_place placed]
    rcases List.mem_append.1 member with old | new
    · have before := counts.above q old
      split <;> omega
    · rw [List.mem_singleton.1 new, if_pos rfl]
      omega
  reached rank := by
    have moved := lanesAt_place placed rank
    by_cases own : rank = p.rank
    · rw [if_pos own] at moved
      refine .inr ?_
      -- The highest lane is the new one, or it was there before.
      by_cases highest : (l.lanesAt rank).toNat ≤ p.lane.toNat + 1
      · exact ⟨_, List.mem_append_right _ (List.mem_singleton_self _), own.symm, by omega⟩
      · rcases counts.reached rank with none | ⟨q, old, there, top⟩
        · rw [none] at highest
          exact absurd (Nat.zero_le _) highest
        · exact ⟨q, List.mem_append_left _ old, there, by omega⟩
    · rw [if_neg own] at moved
      rw [UInt32.toNat_inj.1 moved]
      refine (counts.reached rank).imp_right fun ⟨q, old, top⟩ => ?_
      exact ⟨q, List.mem_append_left _ old, top⟩

theorem placeAll (counts : Counts l handed) {blocks : List Block} {positions : List Position}
    (returned : l.placeAll blocks = some (m, positions)) : Counts m (handed ++ positions) := by
  induction blocks generalizing l handed positions with
  | nil =>
    obtain ⟨rfl, rfl⟩ := Prod.mk.inj (Option.some.inj returned)
    rwa [List.append_nil]
  | cons b blocks ih =>
    obtain ⟨next, p, more, first, rest, rfl⟩ := placeAll_cons.1 returned
    have all := ih (counts.place first) rest
    rwa [List.append_assoc] at all

/-- The count of a rank stands at the last lane when the one before it is taken. -/
theorem full_iff (counts : Counts l handed) (rank : UInt64) :
    l.lanesAt rank = lastLane ↔ ⟨rank, lastLane - 1⟩ ∈ handed := by
  have last : (lastLane - 1).toNat + 1 = lastLane.toNat := rfl
  constructor
  · intro full
    rcases counts.reached rank with none | ⟨⟨_, lane⟩, member, rfl, top⟩
    · rw [none] at full
      cases full
    · have same : lane = lastLane - 1 := by
        rw [← UInt32.toNat_inj]
        dsimp only at top
        rw [full] at top
        omega
      exact same ▸ member
  · intro member
    have above := counts.above _ member
    have below := (l.lanesAt rank).toNat_lt_size
    rw [eq_lastLane_iff]
    have size : lastLane.toNat + 1 = UInt32.size := rfl
    dsimp only at above
    omega

/-- A call does not return when its block comes to the last lane, and only then. -/
theorem fails_iff (counts : Counts l handed) (b : Block) : l.place b = none ↔ Exhausts handed b := by
  rw [place_eq_none_iff]
  cases positioned : b.position with
  | some position =>
    obtain ⟨rank, lane⟩ := position
    simp [Exhausts, positioned, assign_positioned positioned]
  | none => simp [Exhausts, positioned, assign_unpositioned positioned, counts.full_iff]

end Counts

/-- Some call does not return when all before it have returned and its block comes to the last lane. -/
theorem placeAll_eq_none_iff (counts : Counts l handed) {blocks : List Block} :
    l.placeAll blocks = none ↔ ∃ front c back m positions, blocks = front ++ c :: back ∧
      l.placeAll front = some (m, positions) ∧ Exhausts (handed ++ positions) c := by
  induction blocks generalizing l handed with
  | nil => simp [placeAll]
  | cons b blocks ih =>
    cases first : l.place b with
    | none =>
      have exhausts := (counts.fails_iff b).1 first
      refine ⟨fun _ => ⟨[], b, blocks, l, [], rfl, rfl, ?_⟩, fun _ => by rw [placeAll, first]; rfl⟩
      rwa [List.append_nil]
    | some placed =>
      obtain ⟨next, p⟩ := placed
      rw [placeAll_cons_eq_none first, ih (counts.place first)]
      constructor
      · rintro ⟨front, c, back, m, positions, rfl, returned, exhausts⟩
        refine ⟨b :: front, c, back, m, p :: positions, rfl, ?_, ?_⟩
        · exact placeAll_cons.2 ⟨next, p, positions, first, returned, rfl⟩
        · rwa [List.append_assoc] at exhausts
      · rintro ⟨front, c, back, m, positions, split, returned, exhausts⟩
        cases front with
        | nil =>
          -- The first call has returned, so it is not the one that does not.
          obtain ⟨rfl, rfl⟩ := List.cons.inj split
          obtain ⟨rfl, rfl⟩ := Prod.mk.inj (Option.some.inj returned)
          rw [List.append_nil, ← counts.fails_iff, first] at exhausts
          cases exhausts
        | cons _ front =>
          obtain ⟨rfl, rfl⟩ := List.cons.inj split
          obtain ⟨other, q, more, same, rest, rfl⟩ := placeAll_cons.1 returned
          obtain ⟨rfl, rfl⟩ := Prod.mk.inj (Option.some.inj (first.symm.trans same))
          refine ⟨front, c, back, m, more, rfl, rest, ?_⟩
          rwa [List.append_assoc]

/-! ## Every call -/

/-- What a layout that has handed out some positions does with a block. -/
structure Deals (l : Lanes) (handed : List Position) (b : Block) : Prop where
  kept : ∀ position m p, b.position = some position → l.place b = some (m, p) → p = position
  fresh : ∀ m p, b.position = none → l.place b = some (m, p) → p.rank = b.height ∧ p ∉ handed
  fails : l.place b = none ↔ Exhausts handed b

theorem Counts.deals (counts : Counts l handed) (b : Block) : Deals l handed b where
  kept _ _ _ := place_positioned
  fresh m p unpositioned placed := by
    rw [place_unpositioned unpositioned placed]
    exact ⟨rfl, fun old => Nat.lt_irrefl _ (counts.above _ old)⟩
  fails := counts.fails_iff b

/-- Whatever blocks a new layout is given, with positions of their own or without. All calls return
unless one of the blocks comes to the last lane; and as long as they do, the next block keeps the position
that it has, or gets one at its height that no block had before. -/
theorem placeAll_fresh (blocks : List Block) :
    (new.placeAll blocks = none ↔ ∃ front c back l handed, blocks = front ++ c :: back ∧
      new.placeAll front = some (l, handed) ∧ Exhausts handed c) ∧
    ∀ l handed, new.placeAll blocks = some (l, handed) → ∀ b, Deals l handed b :=
  ⟨placeAll_eq_none_iff Counts.new, fun _ _ returned b => (Counts.new.placeAll returned).deals b⟩

/-- A block at a height, as another layout may have placed it. -/
def blockAt (height : UInt64) (position : Option Position) : Block :=
  { Block.ofHeader (.new height "0xa" "0x0") .unknown "a" 0 with position }

/-- Blocks from other layouts bring lanes in no order, one of them the last but two. -/
theorem placeAll_fresh_foreign :
    let blocks := [blockAt 1 (some ⟨7, 4294967293⟩), blockAt 7 (some ⟨1, 3⟩), blockAt 1 none,
      blockAt 1 (some ⟨1, 0⟩)]
    ∃ l, new.placeAll blocks = some (l, [⟨7, 4294967293⟩, ⟨1, 3⟩, ⟨1, 4⟩, ⟨1, 0⟩]) ∧
      (l.place (blockAt 7 none)).map (·.2) = some ⟨7, 4294967294⟩ ∧
      Deals l [⟨7, 4294967293⟩, ⟨1, 3⟩, ⟨1, 4⟩, ⟨1, 0⟩] (blockAt 7 none) := by
  intro blocks
  have returned : new.placeAll blocks =
      some (⟨.ofList [(1, 5), (7, 4294967294)]⟩, [⟨7, 4294967293⟩, ⟨1, 3⟩, ⟨1, 4⟩, ⟨1, 0⟩]) := by
    decide +kernel
  exact ⟨_, returned, by decide +kernel, (placeAll_fresh blocks).2 _ _ returned (blockAt 7 none)⟩

/-- A block may bring the last lane along, and the call that places it does not return. -/
theorem not_placeAll_last :
    ¬ ∀ blocks, ∃ l handed, new.placeAll blocks = some (l, handed) := by
  intro always
  obtain ⟨l, handed, returned⟩ := always [blockAt 5 (some ⟨5, 4294967295⟩)]
  have stuck : new.placeAll [blockAt 5 (some ⟨5, 4294967295⟩)] = none := by decide +kernel
  rw [stuck] at returned
  cases returned

end BlockGraph.Lanes
