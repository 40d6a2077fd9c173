/-!
# Sets of characters

A set of characters is kept as ranges of code points that ascend and neither meet nor touch, so that
equal sets are equal values. Letter case and the named classes are those of ASCII.

- `covers_insert`: a range put into a set adds what lies in it and nothing else.
-/

namespace BlockGraph.Text

/-- Ranges of code points, each with its first and its last one. -/
abbrev Ranges := List (Nat × Nat)

namespace Ranges

/-- Whether a code point lies in one of the ranges. -/
def covers (n : Nat) (rs : Ranges) : Bool := rs.any fun (low, high) => low ≤ n && n ≤ high

/-- The ranges with one more, which swallows those that it meets or touches. -/
def insert (low high : Nat) : Ranges → Ranges
  | [] => [(low, high)]
  | (first, last) :: rest =>
    if high + 1 < first then (low, high) :: (first, last) :: rest
    else if last + 1 < low then (first, last) :: insert low high rest
    else insert (min low first) (max high last) rest

/-- The greatest code point. -/
def maxCode : Nat := 0x10FFFF

/-- What lies between the ranges from a code point on. -/
def gaps (start : Nat) : Ranges → Ranges
  | [] => if start ≤ maxCode then [(start, maxCode)] else []
  | (low, high) :: rest =>
    if start < low then (start, low - 1) :: gaps (high + 1) rest else gaps (high + 1) rest

@[simp] theorem covers_cons (n low high : Nat) (rs : Ranges) :
    covers n ((low, high) :: rs) = ((low ≤ n && n ≤ high) || covers n rs) := rfl

theorem covers_insert (n : Nat) (rs : Ranges) (h : ∀ r ∈ rs, r.1 ≤ r.2) (low high : Nat)
    (hle : low ≤ high) :
    covers n (insert low high rs) = ((low ≤ n && n ≤ high) || covers n rs) := by
  induction rs generalizing low high with
  | nil => rfl
  | cons r rest ih =>
    obtain ⟨first, last⟩ := r
    have hr : first ≤ last := h (first, last) (by simp)
    have ih := ih fun r hm => h r (by simp [hm])
    rw [insert]
    split
    · rfl
    · split
      · rw [covers_cons, ih low high hle, covers_cons, Bool.or_left_comm]
      · rw [ih _ _ (by omega), covers_cons, ← Bool.or_assoc]
        congr 1
        rw [Bool.eq_iff_iff]
        simp only [Bool.and_eq_true, Bool.or_eq_true, decide_eq_true_eq]
        omega

end Ranges

/-- A set of characters. -/
structure CharSet where
  ranges : Ranges
  deriving DecidableEq, Repr

namespace CharSet

def contains (c : Char) (s : CharSet) : Bool := s.ranges.covers c.toNat

def empty : CharSet := ⟨[]⟩

def all : CharSet := ⟨[(0, Ranges.maxCode)]⟩

def isEmpty (s : CharSet) : Bool := s.ranges.isEmpty

/-- The set with the characters from one to another. -/
def insert (s : CharSet) (low high : Char) : CharSet := ⟨s.ranges.insert low.toNat high.toNat⟩

def union (a b : CharSet) : CharSet :=
  ⟨b.ranges.foldl (fun rs (low, high) => Ranges.insert low high rs) a.ranges⟩

def compl (s : CharSet) : CharSet := ⟨s.ranges.gaps 0⟩

def inter (a b : CharSet) : CharSet := (a.compl.union b.compl).compl

/-- What is in the first set and not in the second. -/
def diff (a b : CharSet) : CharSet := a.inter b.compl

/-- The characters from one to another. -/
def range (low high : Char) : CharSet := empty.insert low high

def single (c : Char) : CharSet := range c c

def ofList (cs : List Char) : CharSet := cs.foldl (fun s c => s.insert c c) empty

/-- With a letter of ASCII also the same letter in the other case. -/
def anyCase (s : CharSet) : CharSet :=
  let moved (f : Nat → Nat) (letters : CharSet) : CharSet :=
    ⟨(s.inter letters).ranges.map fun (low, high) => (f low, f high)⟩
  (s.union (moved (· + 32) (range 'A' 'Z'))).union (moved (· - 32) (range 'a' 'z'))

/-- The one character of the set, when it has no other. -/
def only? (s : CharSet) : Option Char :=
  match s.ranges with
  | [(low, high)] => if low = high then some (Char.ofNat low) else none
  | _ => none

def digit : CharSet := range '0' '9'

def alpha : CharSet := (range 'a' 'z').insert 'A' 'Z'

def alnum : CharSet := alpha.union digit

/-- The characters of words: letters, digits and the underscore. -/
def word : CharSet := alnum.insert '_' '_'

def space : CharSet := (single ' ').insert '\t' '\r'

def named? (name : String) : Option CharSet :=
  match name with
  | "alnum" => some alnum
  | "alpha" => some alpha
  | "ascii" => some (range '\x00' '\x7f')
  | "blank" => some (ofList ['\t', ' '])
  | "cntrl" => some ((range '\x00' '\x1f').insert '\x7f' '\x7f')
  | "digit" => some digit
  | "graph" => some (range '!' '~')
  | "lower" => some (range 'a' 'z')
  | "print" => some (range ' ' '~')
  | "punct" => some ((range '!' '~').diff alnum)
  | "space" => some space
  | "upper" => some (range 'A' 'Z')
  | "word" => some word
  | "xdigit" => some ((digit.insert 'A' 'F').insert 'a' 'f')
  | _ => none

end CharSet

end BlockGraph.Text
