/-!
# Control sequences

A text may hold sequences that steer a terminal instead of being shown: an escape character and what
belongs to it. `withoutControls` takes them out, together with all control characters but the blank
ones.

A blank control character inside a sequence is shown, and with it all that follows up to the next
control character; only there the sequence goes on.

- `withoutControls_of_plain`: a text without control characters stays as it is.
-/

namespace BlockGraph.Text

/-- Where a text stands with respect to control sequences. -/
inductive ControlState where
  | ground
  | escape
  | escapeMiddle
  | csiStart
  | csiParameters
  | csiMiddle
  | csiIgnored
  | dcsStart
  | dcsParameters
  | dcsMiddle
  | dcsIgnored
  | dcsText
  /-- In the command of an operating system. -/
  | command
  /-- In another string that is not shown. -/
  | string
  deriving DecidableEq, Repr

namespace ControlState

/-- What comes behind a character of ASCII, given by its code. -/
def next (s : ControlState) (n : Nat) : ControlState :=
  if n = 0x18 || n = 0x1A then .ground
  else if n = 0x1B then .escape
  else match s with
    | .ground => .ground
    | .escape =>
      if n < 0x20 || n = 0x7F then s
      else if n < 0x30 then .escapeMiddle
      else if n = 0x5B then .csiStart
      else if n = 0x5D then .command
      else if n = 0x50 then .dcsStart
      else if n = 0x58 || n = 0x5E || n = 0x5F then .string
      else .ground
    | .escapeMiddle => if n < 0x30 || n = 0x7F then s else .ground
    | .csiStart =>
      if n < 0x20 || n = 0x7F then s
      else if n < 0x30 then .csiMiddle
      else if n < 0x40 then .csiParameters
      else .ground
    | .csiParameters =>
      if n < 0x20 || n = 0x7F then s
      else if n < 0x30 then .csiMiddle
      else if n < 0x3C then s
      else if n < 0x40 then .csiIgnored
      else .ground
    | .csiMiddle =>
      if n < 0x30 || n = 0x7F then s else if n < 0x40 then .csiIgnored else .ground
    | .csiIgnored => if n < 0x40 || n = 0x7F then s else .ground
    | .dcsStart =>
      if n < 0x20 || n = 0x7F then s
      else if n < 0x30 then .dcsMiddle
      else if n < 0x40 then .dcsParameters
      else .dcsText
    | .dcsParameters =>
      if n < 0x20 || n = 0x7F then s
      else if n < 0x30 then .dcsMiddle
      else if n < 0x3C then s
      else if n < 0x40 then .dcsIgnored
      else .dcsText
    | .dcsMiddle =>
      if n < 0x30 || n = 0x7F then s else if n < 0x40 then .dcsIgnored else .dcsText
    | .dcsIgnored | .dcsText | .string => s
    | .command => if n = 0x07 then .ground else s

/-- Whether the string that is under way swallows control characters. -/
def swallows : ControlState → Bool
  | .dcsStart | .dcsParameters | .dcsMiddle | .dcsIgnored | .dcsText | .command | .string => true
  | _ => false

/-- Whether the byte `9C` ends the string that is under way. -/
def endsAtByte : ControlState → Bool
  | .dcsIgnored | .dcsText | .string => true
  | _ => false

end ControlState

/-- Whether the UTF-8 form of a character of several bytes holds the byte `9C`. -/
def hasStringEnd (c : Char) : Bool :=
  let n := c.toNat
  n % 64 = 0x1C || 0x800 ≤ n && n / 64 % 64 = 0x1C || 0x10000 ≤ n && n / 4096 % 64 = 0x1C

/-- Whether a character of ASCII is a control character that is shown as a blank. -/
def isBlankControl (c : Char) : Bool := c = '\t' || c = '\n' || c = '\x0c' || c = '\r'

/-- Whether a character outside control sequences is shown. -/
def isShown (c : Char) : Bool := 0x20 ≤ c.toNat && c.toNat ≠ 0x7F || isBlankControl c

/-- What is shown of a text; `showing` tells whether the character before was shown. -/
def shownChars : (showing : Bool) → ControlState → List Char → List Char
  | _, _, [] => []
  | true, s, c :: cs =>
    if isShown c then c :: shownChars true (if c.toNat < 0x80 then s else .ground) cs
    else shownChars false (s.next c.toNat) cs
  | false, s, c :: cs =>
    if c.toNat < 0x80 then
      let isVisible := if s = .ground then isShown c else isBlankControl c && !s.swallows
      if isVisible then c :: shownChars true (s.next c.toNat) cs
      else shownChars false (s.next c.toNat) cs
    else if s = .ground then c :: shownChars true s cs
    else shownChars false (if s.endsAtByte && hasStringEnd c then .ground else s) cs

/-- The text without control sequences and control characters. -/
def withoutControls (s : String) : String := String.ofList (shownChars false .ground s.toList)

theorem shownChars_of_all (b : Bool) (cs : List Char) (h : cs.all isShown = true) :
    shownChars b .ground cs = cs := by
  induction cs generalizing b with
  | nil => cases b <;> rfl
  | cons c cs ih =>
    simp only [List.all_cons, Bool.and_eq_true] at h
    obtain ⟨hc, hcs⟩ := h
    cases b with
    | true => simp [shownChars, hc, ih true hcs]
    | false =>
      simp only [shownChars, if_pos, hc]
      split
      · rename_i hlt
        have hg : ControlState.ground.next c.toNat = .ground := by
          have hne : c.toNat ≠ 0x1B := by
            intro he
            have hne : c ≠ '\t' ∧ c ≠ '\n' ∧ c ≠ '\x0c' ∧ c ≠ '\r' := by
              refine ⟨?_, ?_, ?_, ?_⟩ <;> rintro rfl <;> exact absurd he (by decide)
            simp [isShown, isBlankControl, he, hne] at hc
          simp only [ControlState.next, hne, if_false]
          split <;> rfl
        rw [hg, ih true hcs]
      · rw [ih true hcs]

theorem withoutControls_of_plain (s : String) (h : s.toList.all isShown = true) :
    withoutControls s = s := by
  rw [withoutControls, shownChars_of_all false _ h, String.ofList_toList]

end BlockGraph.Text
