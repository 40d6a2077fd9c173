import BlockGraph.Text.Extending
import BlockGraph.Text.Hex
import BlockGraph.Text.Unprintable

/-!
# Quoted texts

A text between quotation marks for a person who has to see each character of it: what would not show
by itself is written as an escape.

- `quotedChar_of_shown`: what shows by itself stands for itself, but for the backslash and the
  quotation mark.
-/

namespace BlockGraph.Text

/-- A code point in hexadecimal digits without zeros in front. -/
def hexText (n : Nat) : List Char := Nat.toDigits 16 n

/-- A character as it stands between quotation marks. -/
def quotedChar (c : Char) : List Char :=
  match c with
  | '\x00' => ['\\', '0']
  | '\t' => ['\\', 't']
  | '\r' => ['\\', 'r']
  | '\n' => ['\\', 'n']
  | '\\' => ['\\', '\\']
  | '"' => ['\\', '"']
  | c =>
    if isExtending c || isUnprintable c then
      ['\\', 'u', '\x7b'] ++ hexText c.toNat ++ ['\x7d']
    else [c]

/-- A text between quotation marks. -/
def quoted (s : String) : String :=
  String.ofList ('"' :: s.toList.flatMap quotedChar ++ ['"'])

theorem isUnprintable_of_control (c : Char) (h : c.toNat < 0x20) : isUnprintable c = true := by
  have hlt : alternates (unprintableBounds.drop 1) c.toNat = false := alternates_of_lt _ h
  rw [isUnprintable, show unprintableBounds = 0 :: unprintableBounds.drop 1 from rfl, alternates,
    hlt]
  simp

theorem quotedChar_of_shown (c : Char) (h : (isExtending c || isUnprintable c) = false)
    (hb : c ≠ '\\') (hq : c ≠ '"') : quotedChar c = [c] := by
  have hc : ¬c.toNat < 0x20 := fun hlt => by simp [isUnprintable_of_control c hlt] at h
  unfold quotedChar
  split
  · exact absurd (by decide) hc
  · exact absurd (by decide) hc
  · exact absurd (by decide) hc
  · exact absurd (by decide) hc
  · exact absurd rfl hb
  · exact absurd rfl hq
  · rw [h]
    rfl

end BlockGraph.Text
