/-!
# Properties of characters

A property of characters is given by the code points at which it begins and ends in turn, in
ascending order.

- `alternates_of_lt`: below the first bound the property does not hold.
-/

namespace BlockGraph.Text

/-- Whether a number lies where a property holds that begins and ends in turn at the bounds. -/
def alternates : (bounds : List Nat) → Nat → Bool
  | [], _ => false
  | b :: bs, n => b ≤ n && !alternates bs n

theorem alternates_of_lt {b n : Nat} (bs : List Nat) (h : n < b) :
    alternates (b :: bs) n = false := by
  have : ¬b ≤ n := by omega
  simp [alternates, this]

end BlockGraph.Text
