import BlockGraph.Store

/-!
# Lanes

Positions are handed out as blocks arrive and are never taken back: a block gets the next free lane
at its height. A block that has a position already keeps it, and later ones are placed above it.

Beyond the last lane that can be numbered there is none, so a call that would have to count it does not
return (`place`, `placeIn`, `rebuild`). The engine assigns lanes without such a check (`assign`,
`assignIn`, `assignAll`), which is the same as long as no height has 2^32 blocks.

- `place_eq_some`, `placeIn_eq_some`, `rebuild_eq_some`: what is placed is what is assigned.
-/

namespace BlockGraph

/-- The next free lane at each rank. -/
structure Lanes where
  next : SortedMap UInt64 UInt32
  deriving DecidableEq, Repr

namespace Lanes

/-- No lane handed out. -/
def new : Lanes := ⟨.empty⟩

/-- The number of lanes handed out at a rank. -/
def lanesAt (l : Lanes) (rank : UInt64) : UInt32 := (l.next.get? rank).getD 0

/-! ## Placing blocks -/

/-- The last lane that can be numbered. -/
def lastLane : UInt32 := 4294967295

/-- The lane beyond a lane, if it can be numbered. -/
def beyond? (lane : UInt32) : Option UInt32 := if lane = lastLane then none else some (lane + 1)

def place (l : Lanes) (block : Block) : Option (Lanes × Position) :=
  match block.position with
  | some position => do
    let free ← beyond? position.lane
    return (⟨l.next.insert position.rank (max (l.lanesAt position.rank) free)⟩, position)
  | none => do
    let lane := l.lanesAt block.height
    let free ← beyond? lane
    return (⟨l.next.insert block.height free⟩, ⟨block.height, lane⟩)

def placeIn (l : Lanes) (s : BlockStore) (hash : String) :
    Option (Lanes × BlockStore × Option Position) :=
  match s.byHash? hash with
  | some block => (l.place block).map fun (l, position) =>
    (l, s.setPosition hash position, some position)
  | none => some (l, s, none)

/-- Places all stored blocks afresh, in the order of their first arrival. -/
def rebuild (s : BlockStore) : Option (Lanes × BlockStore) :=
  s.hashes.foldlM
    (fun (l, s) hash => (placeIn l s hash).map fun (l, s, _) => (l, s))
    (new, s.clearPositions)

/-! ## Assigning lanes -/

/-- Places a block whose lane has one beyond it; else the count starts again. -/
def assign (l : Lanes) (block : Block) : Lanes × Position :=
  match block.position with
  | some position =>
    (⟨l.next.insert position.rank (max (l.lanesAt position.rank) (position.lane + 1))⟩, position)
  | none =>
    let lane := l.lanesAt block.height
    (⟨l.next.insert block.height (lane + 1)⟩, ⟨block.height, lane⟩)

def assignIn (l : Lanes) (s : BlockStore) (hash : String) : Lanes × BlockStore × Option Position :=
  match s.byHash? hash with
  | some block =>
    let (l, position) := l.assign block
    (l, s.setPosition hash position, some position)
  | none => (l, s, none)

/-- Assigns lanes to all stored blocks afresh, in the order of their first arrival. -/
def assignAll (s : BlockStore) : Lanes × BlockStore :=
  s.hashes.foldl
    (fun (l, s) hash =>
      let (l, s, _) := assignIn l s hash
      (l, s))
    (new, s.clearPositions)

/-! ## Placing is assigning -/

/-- A block is placed where it is assigned, unless that is the last lane. -/
theorem place_eq (l : Lanes) (b : Block) :
    l.place b = if (l.assign b).2.lane = lastLane then none else some (l.assign b) := by
  unfold place assign beyond?
  cases b.position with
  | some position =>
    dsimp only
    split <;> rfl
  | none =>
    dsimp only
    split <;> rfl

theorem place_eq_some {l : Lanes} {b : Block} {placed : Lanes × Position} :
    l.place b = some placed ↔ (l.assign b).2.lane ≠ lastLane ∧ l.assign b = placed := by
  rw [place_eq]
  split <;> simp [*]

theorem placeIn_eq_some {l : Lanes} {s : BlockStore} {hash : String}
    {placed : Lanes × BlockStore × Option Position} (returned : l.placeIn s hash = some placed) :
    l.assignIn s hash = placed := by
  unfold placeIn at returned
  unfold assignIn
  cases found : s.byHash? hash with
  | none =>
    rw [found] at returned
    exact Option.some.inj returned
  | some b =>
    rw [found] at returned
    obtain ⟨result, own, rfl⟩ := Option.map_eq_some_iff.1 returned
    rw [← (place_eq_some.1 own).2]

theorem placeIn_eq {l : Lanes} {s : BlockStore} {hash : String} {b : Block}
    (stored : s.byHash? hash = some b) (placed : l.place b = some (l.assign b)) :
    l.placeIn s hash = some (l.assignIn s hash) := by
  simp only [placeIn, assignIn, stored, placed, Option.map_some]

theorem rebuild_eq_some {s : BlockStore} {placed : Lanes × BlockStore}
    (returned : rebuild s = some placed) : assignAll s = placed := by
  unfold rebuild at returned
  unfold assignAll
  generalize (new, s.clearPositions) = state, s.hashes = hashes at returned ⊢
  induction hashes generalizing state with
  | nil => exact Option.some.inj returned
  | cons hash hashes ih =>
    obtain ⟨l, t⟩ := state
    rw [List.foldlM_cons] at returned
    obtain ⟨next, first, rest⟩ := Option.bind_eq_some_iff.1 returned
    obtain ⟨result, own, rfl⟩ := Option.map_eq_some_iff.1 first
    rw [List.foldl_cons]
    dsimp only
    rw [placeIn_eq_some own]
    exact ih _ rest

end Lanes

end BlockGraph
