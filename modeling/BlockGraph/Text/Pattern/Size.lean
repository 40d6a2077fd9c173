import BlockGraph.Text.Pattern

/-!
# Sizes of patterns

How many bytes the states take of an automaton that reads a text forwards or backwards for a
pattern. An automaton goes byte by byte, so a set of characters becomes the byte sequences of its
UTF-8 form, of which those that begin or end alike share states.
-/

namespace BlockGraph.Text

/-! ## Byte sequences -/

namespace Ranges

/-- The greatest codes that take one, two, three and four bytes, and the first and last codes that
no character has. -/
def lengthBounds : List Nat := [0x7F, 0x7FF, 0xD7FF, 0xDFFF, 0xFFFF, maxCode]

/-- The parts of a range between the bounds of an ascending list. -/
def cutAt (low high : Nat) : List Nat → Ranges
  | [] => if low ≤ high then [(low, high)] else []
  | b :: bs =>
    if b < low then cutAt low high bs
    else if high ≤ b then [(low, high)]
    else (low, b) :: cutAt (b + 1) high bs

/-- The parts of a range between whole blocks of so many codes each. -/
def cutBlocks (block : Nat) (r : Nat × Nat) : Ranges :=
  let (low, high) := r
  let lowEnd := low / block * block + block - 1
  let highStart := high / block * block
  if high ≤ lowEnd then [r]
  else
    let front := if low % block = 0 then [] else [(low, lowEnd)]
    let back := if high % block = block - 1 then [] else [(highStart, high)]
    let middleStart := if low % block = 0 then low else lowEnd + 1
    let middleStop := if high % block = block - 1 then high else highStart - 1
    let middle := if middleStart ≤ middleStop then [(middleStart, middleStop)] else []
    front ++ middle ++ back

/-- The ranges of the bytes of the UTF-8 form, for a range whose codes differ in their last bytes
only. -/
def byteRanges (r : Nat × Nat) : Ranges :=
  let (low, high) := r
  let tail (n : Nat) : Nat × Nat := (0x80 + low / n % 64, 0x80 + high / n % 64)
  if high ≤ 0x7F then [r]
  else if high ≤ 0x7FF then [(0xC0 + low / 64, 0xC0 + high / 64), tail 1]
  else if high ≤ 0xFFFF then [(0xE0 + low / 4096, 0xE0 + high / 4096), tail 64, tail 1]
  else [(0xF0 + low / 262144, 0xF0 + high / 262144), tail 4096, tail 64, tail 1]

def byteSequences (r : Nat × Nat) : List Ranges :=
  let parts := (cutAt r.1 r.2 lengthBounds).filter fun (low, _) => low < 0xD800 || 0xDFFF < low
  let blocks (r : Nat × Nat) : Ranges :=
    if r.2 ≤ 0x7F then [r]
    else if r.2 ≤ 0x7FF then cutBlocks 64 r
    else if r.2 ≤ 0xFFFF then (cutBlocks 64 r).flatMap (cutBlocks 4096)
    else ((cutBlocks 64 r).flatMap (cutBlocks 4096)).flatMap (cutBlocks 262144)
  (parts.flatMap blocks).map byteRanges

end Ranges

/-! ## Sizes -/

namespace CharSet

/-- The bytes that the states for one character of a set take. -/
def automatonSize (backwards : Bool) (s : CharSet) : Nat :=
  match s.only? with
  | some c => 32 * c.utf8Size
  | none =>
    if s.ranges.all fun (_, high) => high ≤ 0x7F then 64 + 8 * s.ranges.length
    else
      let sequences := s.ranges.flatMap Ranges.byteSequences
      if backwards then
        let starts := sequences.flatMap fun bytes =>
          (List.range bytes.length).map fun n => bytes.take (n + 1)
        64 + 4 * sequences.length + 32 * starts.eraseDups.length
      else
        let ends := sequences.flatMap fun bytes =>
          (List.range (bytes.length - 1)).map fun n => bytes.drop (n + 1)
        64 + 8 * sequences.length + 40 * ends.eraseDups.length

end CharSet

namespace Pattern

def isAlt : Pattern → Bool
  | .alt _ _ => true
  | _ => false

/-- The bytes that the states for a pattern take: 32 for a state, and more for each way out of a
state with several. -/
def automatonSize (backwards : Bool) : Pattern → Nat
  | .empty | .look _ => 32
  | .char set => set.automatonSize backwards
  | .seq p q => p.automatonSize backwards + q.automatonSize backwards
  | .alt p q => p.automatonSize backwards + q.automatonSize backwards + (if q.isAlt then 4 else 72)
  | .repeated p least most =>
    let part := p.automatonSize backwards
    match most with
    | none => max least 1 * part + 40
    | some most =>
      if most ≤ least then least * part else least * part + (most - least) * (part + 40) + 32
  | .group p => p.automatonSize backwards + (if backwards then 0 else 64)

/-- The bytes of an automaton for a pattern, with the states that pass what stands in front of a
match and those that tell one. -/
def searchSize (backwards : Bool) (p : Pattern) : Nat :=
  p.automatonSize backwards + (if backwards then 144 else 208)

end Pattern

end BlockGraph.Text
