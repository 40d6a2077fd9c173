import BlockGraph.Decimal.Binary64
import BlockGraph.Json.Record

/-!
# Positions

Where a block is drawn: its rank is its height, its lane counts the blocks of that height in the
order of their arrival.
-/

namespace BlockGraph

/-- A place in the drawing of the graph. -/
structure Position where
  rank : UInt64
  lane : UInt32
  deriving DecidableEq, Repr

/-- The distances between neighbouring ranks and lanes. -/
structure Scale where
  rankSpacing : Binary64
  laneSpacing : Binary64
  deriving DecidableEq, Repr

/-- Ranks stand 200 apart, lanes 100. -/
def Scale.standard : Scale := ⟨.ofNat 200, .ofNat 100⟩

/-- The JSON form of a scale. -/
def Scale.codec : Codec Scale :=
  Fields.codec
    (.cons (.required "rankSpacing" .real Scale.rankSpacing)
      (.cons (.required "laneSpacing" .real Scale.laneSpacing) .done))
    Scale.mk

namespace Position

/-- The coordinates of a position; the first grows with the rank, the second with the lane. -/
def coordinates (p : Position) (scale : Scale) : Binary64 × Binary64 :=
  ((Binary64.ofNat p.rank.toNat).mul scale.rankSpacing,
    (Binary64.ofNat p.lane.toNat).mul scale.laneSpacing)

/-- The JSON form of a position. -/
def codec : Codec Position :=
  Fields.codec
    (.cons (.required "rank" .word64 Position.rank)
      (.cons (.required "lane" .word32 Position.lane) .done))
    Position.mk

end Position

end BlockGraph
