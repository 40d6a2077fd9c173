/-!
# UTF-8

Byte lengths of texts, and the reading of bytes as characters. One small machine, `Scan`, takes a
byte at a time; `decode` stops at the first byte that no character can continue with and says
where, `salvage` marks such places and goes on.

- `cut?_append`: a cut at `n` bytes is a front part of the text and takes `n` bytes.
-/

namespace BlockGraph.Text

/-- The number of bytes that a list of characters takes. -/
def byteLength : List Char → Nat
  | [] => 0
  | c :: cs => c.utf8Size + byteLength cs

/-- The characters that fill exactly the first `n` bytes; `none` where the text is shorter or `n`
falls inside a character. -/
def cut? : Nat → List Char → Option (List Char)
  | 0, _ => some []
  | _ + 1, [] => none
  | n + 1, c :: cs =>
    if c.utf8Size ≤ n + 1 then (cut? (n + 1 - c.utf8Size) cs).map (c :: ·) else none

theorem cut?_append {n : Nat} {cs front : List Char} (h : cut? n cs = some front) :
    ∃ rest, cs = front ++ rest ∧ byteLength front = n := by
  induction cs generalizing n front with
  | nil =>
    cases n with
    | zero => simp only [cut?, Option.some.injEq] at h; subst h; exact ⟨[], rfl, rfl⟩
    | succ n => simp [cut?] at h
  | cons c cs ih =>
    cases n with
    | zero => simp only [cut?, Option.some.injEq] at h; subst h; exact ⟨c :: cs, rfl, rfl⟩
    | succ n =>
      by_cases hc : c.utf8Size ≤ n + 1
      · simp only [cut?, hc, if_true, Option.map_eq_some_iff] at h
        obtain ⟨front', h', rfl⟩ := h
        obtain ⟨rest, rfl, hl⟩ := ih h'
        refine ⟨rest, rfl, ?_⟩
        simp only [byteLength]
        omega
      · simp [cut?, hc] at h

/-! ## One byte at a time -/

/-- A character whose first bytes have been read: how many it has shown and still owes, the bounds
of the next one, and the bits so far. -/
structure Scan where
  shown : Nat
  owed : Nat
  low : UInt8
  high : UInt8
  bits : Nat
  deriving DecidableEq, Repr

/-- What a byte does. -/
inductive ByteStep where
  | char (c : Char)
  | more (scan : Scan)
  | refused
  deriving DecidableEq, Repr

/-- The first byte of a character. The second byte of some characters is bounded more tightly, which
excludes overlong forms, surrogates and values above U+10FFFF. -/
def firstByte (b : UInt8) : ByteStep :=
  let tail (owed : Nat) (low high : UInt8) (bits : Nat) := ByteStep.more ⟨1, owed, low, high, bits⟩
  if b < 0x80 then .char (Char.ofNat b.toNat)
  else if b < 0xC2 then .refused
  else if b < 0xE0 then tail 1 0x80 0xBF (b.toNat - 0xC0)
  else if b == 0xE0 then tail 2 0xA0 0xBF 0
  else if b == 0xED then tail 2 0x80 0x9F 0xD
  else if b < 0xF0 then tail 2 0x80 0xBF (b.toNat - 0xE0)
  else if b == 0xF0 then tail 3 0x90 0xBF 0
  else if b < 0xF4 then tail 3 0x80 0xBF (b.toNat - 0xF0)
  else if b == 0xF4 then tail 3 0x80 0x8F 4
  else .refused

/-- A byte after the first. -/
def Scan.next (scan : Scan) (b : UInt8) : ByteStep :=
  if scan.low ≤ b && b ≤ scan.high then
    let bits := scan.bits * 64 + (b.toNat - 0x80)
    if scan.owed ≤ 1 then .char (Char.ofNat bits)
    else .more ⟨scan.shown + 1, scan.owed - 1, 0x80, 0xBF, bits⟩
  else .refused

/-! ## Whole texts -/

/-- Why bytes are no text. -/
inductive Utf8Error where
  /-- The `length` bytes from `index` on begin no character. -/
  | invalid (length index : Nat)
  /-- The text ends inside the character that begins at `index`. -/
  | incomplete (index : Nat)
  deriving DecidableEq, Repr

def Utf8Error.message : Utf8Error → String
  | .invalid n i => s!"invalid utf-8 sequence of {n} bytes from index {i}"
  | .incomplete i => s!"incomplete utf-8 byte sequence from index {i}"

/-- The characters of the bytes from `index` on, after the character in `scan`, if one is begun. -/
def decodeFrom (index : Nat) : Option Scan → List UInt8 → Except Utf8Error (List Char)
  | none, [] => .ok []
  | some scan, [] => .error (.incomplete (index - scan.shown))
  | none, b :: bytes =>
    match firstByte b with
    | .char c => (c :: ·) <$> decodeFrom (index + 1) none bytes
    | .more scan => decodeFrom (index + 1) (some scan) bytes
    | .refused => .error (.invalid 1 index)
  | some scan, b :: bytes =>
    match scan.next b with
    | .char c => (c :: ·) <$> decodeFrom (index + 1) none bytes
    | .more scan => decodeFrom (index + 1) (some scan) bytes
    | .refused => .error (.invalid scan.shown (index - scan.shown))

/-- The text that the bytes spell. -/
def decode (bytes : List UInt8) : Except Utf8Error String :=
  String.ofList <$> decodeFrom 0 none bytes

/-- The characters of the bytes, with `none` in each place that begins no character; a byte that
breaks a character off is read again as a first byte. -/
def salvageFrom : Option Scan → List UInt8 → List (Option Char)
  | none, [] => []
  | some _, [] => [none]
  | none, b :: bytes =>
    match firstByte b with
    | .char c => some c :: salvageFrom none bytes
    | .more scan => salvageFrom (some scan) bytes
    | .refused => none :: salvageFrom none bytes
  | some scan, b :: bytes =>
    match scan.next b with
    | .char c => some c :: salvageFrom none bytes
    | .more scan => salvageFrom (some scan) bytes
    | .refused =>
      match firstByte b with
      | .char c => none :: some c :: salvageFrom none bytes
      | .more scan => none :: salvageFrom (some scan) bytes
      | .refused => none :: none :: salvageFrom none bytes

/-- The characters of the bytes, with `none` in each place that begins no character. -/
def salvage (bytes : List UInt8) : List (Option Char) := salvageFrom none bytes

/-- The bytes that spell a text. -/
def encode (s : String) : List UInt8 := s.toUTF8.toList

end BlockGraph.Text
