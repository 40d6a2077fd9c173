import BlockGraph.Text.Utf8

/-!
# Bytes and texts

The reading of bytes is the inverse of the writing of texts: it yields the text of which they are the
bytes, and fails on all other bytes.

* `cropped`, `tailBytes`, `Scan.Leads` — the bytes of a character behind the first ones, and the values
  that the first ones leave open.
* `Starts`, `Starts.chars`, `starts_char` — the first bytes of longer characters, and that they leave open
  exactly the values of these.
* `firstByte_cases`, `firstByte_encode` — what a first byte leads to, and the first byte of a character.
* `decode_iff` — bytes are read as a text if and only if they are its bytes.
* `encode_split` — a byte below 0x80 stands for itself, wherever it occurs.
-/

namespace BlockGraph.Text

/-- A value without its last `n` groups of six bits. -/
def cropped : Nat → Nat → Nat
  | 0, v => v
  | n + 1, v => cropped n v / 64

/-- The last `n` bytes of the character with a value. -/
def tailBytes : Nat → Nat → List UInt8
  | 0, _ => []
  | n + 1, v => UInt8.ofNat (cropped n v % 64 + 0x80) :: tailBytes n v

/-- Whether the character with a value can be the one of which the first bytes have been read. -/
structure Scan.Leads (scan : Scan) (v : Nat) : Prop where
  owing : 0 < scan.owed
  bits : cropped scan.owed v = scan.bits
  low : scan.low.toNat ≤ cropped (scan.owed - 1) v % 64 + 0x80
  high : cropped (scan.owed - 1) v % 64 + 0x80 ≤ scan.high.toNat

theorem map_eq_ok {ε α β : Type} {f : α → β} {x : Except ε α} {b : β} (mapped : f <$> x = .ok b) :
    ∃ a, x = .ok a ∧ b = f a := by
  cases x with
  | error => cases mapped
  | ok a => exact ⟨a, rfl, (Except.ok.inj mapped).symm⟩

/-! ## Bytes behind the first -/

variable {scan : Scan} {v : Nat} {b : UInt8}

theorem Scan.leads_iff {shown n bits : Nat} {low high : UInt8} :
    Leads ⟨shown, n + 1, low, high, bits⟩ v ↔
      cropped (n + 1) v = bits ∧ low.toNat ≤ cropped n v % 64 + 0x80 ∧ cropped n v % 64 + 0x80 ≤ high.toNat :=
  ⟨fun ⟨_, bits, low, high⟩ => ⟨bits, low, high⟩, fun ⟨bits, low, high⟩ => ⟨Nat.succ_pos n, bits, low, high⟩⟩

theorem toNat_tailByte (v : Nat) : (UInt8.ofNat (v % 64 + 0x80)).toNat = v % 64 + 0x80 := by
  rw [UInt8.toNat_ofNat']
  omega

theorem eq_tailByte (same : b.toNat = v % 64 + 0x80) : b = UInt8.ofNat (v % 64 + 0x80) :=
  UInt8.toNat_inj.1 (same.trans (toNat_tailByte v).symm)

/-- The next byte of a character ends it or leads on to it. -/
theorem Scan.Leads.next (leads : scan.Leads v) :
    scan.next (UInt8.ofNat (cropped (scan.owed - 1) v % 64 + 0x80)) =
      if scan.owed = 1 then .char (Char.ofNat v)
      else .more ⟨scan.shown + 1, scan.owed - 1, 0x80, 0xBF, cropped (scan.owed - 1) v⟩ := by
  obtain ⟨shown, owed, lowest, highest, read⟩ := scan
  obtain ⟨n, rfl⟩ : ∃ n, owed = n + 1 := Nat.exists_eq_add_one.2 leads.owing
  obtain ⟨bits, low, high⟩ := leads_iff.1 leads
  simp only [Nat.add_sub_cancel, cropped] at bits low high ⊢
  have within : (lowest ≤ UInt8.ofNat (cropped n v % 64 + 0x80) &&
      UInt8.ofNat (cropped n v % 64 + 0x80) ≤ highest) = true := by
    simp only [Bool.and_eq_true, decide_eq_true_eq, UInt8.le_iff_toNat_le, toNat_tailByte]
    exact ⟨low, high⟩
  have value : read * 64 + (cropped n v % 64 + 0x80 - 0x80) = cropped n v := by omega
  rw [Scan.next, if_pos within]
  simp only [toNat_tailByte, value]
  by_cases last : n = 0
  · subst last
    rfl
  · rw [if_neg (by omega), if_neg (by omega), Nat.add_sub_cancel]

theorem Scan.Leads.later (leads : scan.Leads v) (more : scan.owed ≠ 1) :
    Scan.Leads ⟨scan.shown + 1, scan.owed - 1, 0x80, 0xBF, cropped (scan.owed - 1) v⟩ v := by
  have owing := leads.owing
  have bounds : (0x80 : UInt8).toNat = 0x80 ∧ (0xBF : UInt8).toNat = 0xBF := by decide
  refine ⟨by dsimp only; omega, rfl, ?_, ?_⟩ <;> dsimp only <;> omega

/-- Whether a scan is one that a first byte begins: it owes something, and no less than a byte that
continues a character. -/
structure Scan.Tight (scan : Scan) : Prop where
  owing : 0 < scan.owed
  low : 0x80 ≤ scan.low.toNat
  high : scan.high.toNat ≤ 0xBF

theorem Scan.next_cases (tight : scan.Tight) :
    (∃ v, scan.owed = 1 ∧ scan.Leads v ∧ b = UInt8.ofNat (v % 64 + 0x80) ∧
      scan.next b = .char (Char.ofNat v)) ∨
    (∃ later : Scan, later.Tight ∧ scan.owed = later.owed + 1 ∧ scan.next b = .more later ∧
      ∀ v, later.Leads v → scan.Leads v ∧ b = UInt8.ofNat (cropped later.owed v % 64 + 0x80)) ∨
    scan.next b = .refused := by
  obtain ⟨shown, owed, lowest, highest, read⟩ := scan
  obtain ⟨owing, low, high⟩ := tight
  obtain ⟨n, rfl⟩ : ∃ n, owed = n + 1 := Nat.exists_eq_add_one.2 owing
  dsimp only at low high
  by_cases within : (lowest ≤ b && b ≤ highest) = true
  · have bounds := within
    simp only [Bool.and_eq_true, decide_eq_true_eq, UInt8.le_iff_toNat_le] at bounds
    rw [Scan.next, if_pos within]
    by_cases last : n = 0
    · subst last
      have leads : Leads ⟨shown, 0 + 1, lowest, highest, read⟩ (read * 64 + (b.toNat - 0x80)) := by
        simp only [leads_iff, cropped]
        omega
      exact .inl ⟨read * 64 + (b.toNat - 0x80), rfl, leads, eq_tailByte (by omega), rfl⟩
    · have next : (if n + 1 ≤ 1 then ByteStep.char (Char.ofNat (read * 64 + (b.toNat - 0x80)))
          else .more ⟨shown + 1, n + 1 - 1, 0x80, 0xBF, read * 64 + (b.toNat - 0x80)⟩) =
            .more ⟨shown + 1, n, 0x80, 0xBF, read * 64 + (b.toNat - 0x80)⟩ := if_neg (by omega)
      refine .inr (.inl ⟨⟨shown + 1, n, 0x80, 0xBF, read * 64 + (b.toNat - 0x80)⟩,
        ⟨Nat.pos_of_ne_zero last, Nat.le_refl 0x80, Nat.le_refl 0xBF⟩, rfl, next, ?_⟩)
      rintro v ⟨_, bits, _, _⟩
      dsimp only at bits ⊢
      have read : cropped (n + 1) v = read := by
        rw [cropped]
        omega
      exact ⟨leads_iff.2 ⟨read, by omega, by omega⟩, eq_tailByte (by omega)⟩
  · exact .inr (.inr (if_neg within))

theorem decodeFrom_tail (leads : scan.Leads v) (index : Nat) (bytes : List UInt8) :
    decodeFrom index (some scan) (tailBytes scan.owed v ++ bytes) =
      (Char.ofNat v :: ·) <$> decodeFrom (index + scan.owed) none bytes := by
  obtain ⟨n, owed⟩ : ∃ n, scan.owed = n + 1 := Nat.exists_eq_add_one.2 leads.owing
  induction n generalizing scan index with
  | zero =>
    have next := leads.next
    rw [if_pos owed] at next
    rw [owed] at next ⊢
    rw [tailBytes, tailBytes, List.cons_append, decodeFrom, next]
    rfl
  | succ n ih =>
    have next := leads.next
    have later := leads.later (by omega)
    rw [if_neg (by omega)] at next
    have rest := ih later (index + 1) (by dsimp only; omega)
    dsimp only at rest
    rw [owed] at next rest ⊢
    rw [tailBytes, List.cons_append, decodeFrom]
    simp only [Nat.add_sub_cancel] at next rest
    rw [next]
    refine rest.trans ?_
    congr 2
    omega

/-- What is read on from the middle of a character begins with the rest of one. -/
theorem tail_decodeFrom (tight : scan.Tight) {index : Nat} {bytes : List UInt8} {cs : List Char}
    (read : decodeFrom index (some scan) bytes = .ok cs) :
    ∃ v later rest chars, scan.Leads v ∧ bytes = tailBytes scan.owed v ++ rest ∧
      decodeFrom later none rest = .ok chars ∧ cs = Char.ofNat v :: chars := by
  induction bytes generalizing scan index with
  | nil => cases read
  | cons b bytes ih =>
    rw [decodeFrom] at read
    rcases Scan.next_cases (b := b) tight with
      ⟨v, last, leads, byte, next⟩ | ⟨next, tight, owed, more, leads⟩ | refused
    · simp only [next] at read
      obtain ⟨chars, rest, rfl⟩ := map_eq_ok read
      refine ⟨v, index + 1, bytes, chars, leads, ?_, rest, rfl⟩
      rw [last, tailBytes, tailBytes, byte]
      rfl
    · simp only [more] at read
      obtain ⟨v, later, rest, chars, onward, rfl, behind, rfl⟩ := ih tight read
      obtain ⟨leads, byte⟩ := leads v onward
      refine ⟨v, later, rest, chars, leads, ?_, behind, rfl⟩
      rw [owed, tailBytes, ← byte]
      rfl
    · rw [refused] at read
      cases read

/-! ## The first byte -/

theorem utf8EncodeChar_eq (c : Char) :
    String.utf8EncodeChar c =
      if c.toNat ≤ 0x7F then [UInt8.ofNat c.toNat]
      else if c.toNat ≤ 0x7FF then UInt8.ofNat (c.toNat / 64 % 0x20 + 0xC0) :: tailBytes 1 c.toNat
      else if c.toNat ≤ 0xFFFF then UInt8.ofNat (c.toNat / 4096 % 0x10 + 0xE0) :: tailBytes 2 c.toNat
      else UInt8.ofNat (c.toNat / 262144 % 0x08 + 0xF0) :: tailBytes 3 c.toNat := by
  simp only [tailBytes, cropped, Nat.div_div_eq_div_mul]
  rfl

theorem firstByte_eq (b : UInt8) :
    firstByte b =
      if b.toNat < 0x80 then .char (Char.ofNat b.toNat)
      else if b.toNat < 0xC2 then .refused
      else if b.toNat < 0xE0 then .more ⟨1, 1, 0x80, 0xBF, b.toNat - 0xC0⟩
      else if b.toNat = 0xE0 then .more ⟨1, 2, 0xA0, 0xBF, 0⟩
      else if b.toNat = 0xED then .more ⟨1, 2, 0x80, 0x9F, 0xD⟩
      else if b.toNat < 0xF0 then .more ⟨1, 2, 0x80, 0xBF, b.toNat - 0xE0⟩
      else if b.toNat = 0xF0 then .more ⟨1, 3, 0x90, 0xBF, 0⟩
      else if b.toNat < 0xF4 then .more ⟨1, 3, 0x80, 0xBF, b.toNat - 0xF0⟩
      else if b.toNat = 0xF4 then .more ⟨1, 3, 0x80, 0x8F, 4⟩
      else .refused := by
  simp only [firstByte, UInt8.lt_iff_toNat_lt, beq_iff_eq, ← UInt8.toNat_inj]
  rfl

theorem toNat_ofNat {v : Nat} (valid : v.isValidChar) : (Char.ofNat v).toNat = v := by
  rw [Char.ofNat, dif_pos valid]
  rfl

/-- The first bytes of the characters of more than one byte, by the values that they leave open. -/
inductive Starts : Nat → Scan → Prop where
  | two {n : Nat} (low : 0xC2 ≤ n) (high : n < 0xE0) : Starts n ⟨1, 1, 0x80, 0xBF, n - 0xC0⟩
  | threeLow : Starts 0xE0 ⟨1, 2, 0xA0, 0xBF, 0⟩
  | three {n : Nat} (low : 0xE0 < n) (high : n < 0xF0) (other : n ≠ 0xED) :
      Starts n ⟨1, 2, 0x80, 0xBF, n - 0xE0⟩
  | threeHigh : Starts 0xED ⟨1, 2, 0x80, 0x9F, 0xD⟩
  | fourLow : Starts 0xF0 ⟨1, 3, 0x90, 0xBF, 0⟩
  | four {n : Nat} (low : 0xF0 < n) (high : n < 0xF4) : Starts n ⟨1, 3, 0x80, 0xBF, n - 0xF0⟩
  | fourHigh : Starts 0xF4 ⟨1, 3, 0x80, 0x8F, 4⟩

variable {n : Nat}

theorem Starts.firstByte (starts : Starts b.toNat scan) : firstByte b = .more scan := by
  rw [firstByte_eq]
  generalize b.toNat = n at starts
  cases starts with
  | two low high => rw [if_neg (by omega), if_neg (by omega), if_pos high]
  | threeLow => rfl
  | three low high other =>
    rw [if_neg (by omega), if_neg (by omega), if_neg (by omega), if_neg (by omega), if_neg other,
      if_pos high]
  | threeHigh => rfl
  | fourLow => rfl
  | four low high =>
    rw [if_neg (by omega), if_neg (by omega), if_neg (by omega), if_neg (by omega), if_neg (by omega),
      if_neg (by omega), if_neg (by omega), if_pos high]
  | fourHigh => rfl

theorem starts_or (n : Nat) :
    n < 0x80 ∨ (0x80 ≤ n ∧ n < 0xC2 ∨ 0xF4 < n) ∨ ∃ scan, Starts n scan := by
  by_cases ascii : n < 0x80
  · exact .inl ascii
  by_cases none : 0x80 ≤ n ∧ n < 0xC2 ∨ 0xF4 < n
  · exact .inr (.inl none)
  refine .inr (.inr ?_)
  by_cases two : n < 0xE0
  · exact ⟨_, .two (by omega) two⟩
  by_cases threeLow : n = 0xE0
  · exact threeLow ▸ ⟨_, .threeLow⟩
  by_cases threeHigh : n = 0xED
  · exact threeHigh ▸ ⟨_, .threeHigh⟩
  by_cases three : n < 0xF0
  · exact ⟨_, .three (by omega) three threeHigh⟩
  by_cases fourLow : n = 0xF0
  · exact fourLow ▸ ⟨_, .fourLow⟩
  by_cases four : n < 0xF4
  · exact ⟨_, .four (by omega) four⟩
  · obtain rfl : n = 0xF4 := by omega
    exact ⟨_, .fourHigh⟩

/-- The bounds of the second byte leave those values open that are characters of that length. -/
theorem Starts.chars (starts : Starts n scan) :
    scan.Tight ∧ ∀ v, scan.Leads v →
      String.utf8EncodeChar (Char.ofNat v) = UInt8.ofNat n :: tailBytes scan.owed v := by
  have lead {m k : Nat} {v : Nat} (same : m = n) :
      UInt8.ofNat m :: tailBytes k v = UInt8.ofNat n :: tailBytes k v := by rw [same]
  have two {v : Nat} (low : 0x7F < v) (high : v ≤ 0x7FF) (first : v / 64 + 0xC0 = n) :
      String.utf8EncodeChar (Char.ofNat v) = UInt8.ofNat n :: tailBytes 1 v := by
    rw [utf8EncodeChar_eq, toNat_ofNat (.inl (by omega)), if_neg (by omega), if_pos high]
    exact lead (by omega)
  have three {v : Nat} (low : 0x7FF < v) (high : v ≤ 0xFFFF) (valid : v.isValidChar)
      (first : v / 4096 + 0xE0 = n) :
      String.utf8EncodeChar (Char.ofNat v) = UInt8.ofNat n :: tailBytes 2 v := by
    rw [utf8EncodeChar_eq, toNat_ofNat valid, if_neg (by omega), if_neg (by omega), if_pos high]
    exact lead (by omega)
  have four {v : Nat} (low : 0xFFFF < v) (high : v < 0x110000) (first : v / 262144 + 0xF0 = n) :
      String.utf8EncodeChar (Char.ofNat v) = UInt8.ofNat n :: tailBytes 3 v := by
    rw [utf8EncodeChar_eq, toNat_ofNat (.inr ⟨by omega, high⟩), if_neg (by omega), if_neg (by omega),
      if_neg (by omega)]
    exact lead (by omega)
  cases starts <;> refine ⟨⟨Nat.succ_pos _, by dsimp only; decide, by dsimp only; decide⟩, ?_⟩ <;>
    rintro v ⟨_, bits, low, high⟩ <;>
    simp only [cropped, Nat.div_div_eq_div_mul, Nat.reduceMul, Nat.reduceSub, UInt8.reduceToNat]
      at bits low high
  case two => exact two (by omega) (by omega) (by omega)
  case threeLow => exact three (by omega) (by omega) (.inl (by omega)) (by omega)
  case three => exact three (by omega) (by omega) (by omega) (by omega)
  case threeHigh => exact three (by omega) (by omega) (.inl (by omega)) (by omega)
  all_goals exact four (by omega) (by omega) (by omega)

/-- A value of more than seven bits is left open by the first byte of its character. -/
theorem starts_char (c : Char) (many : 0x7F < c.toNat) :
    ∃ n scan, n < 256 ∧ Starts n scan ∧ scan.Leads c.toNat ∧
      String.utf8EncodeChar c = UInt8.ofNat n :: tailBytes scan.owed c.toNat := by
  have valid : c.toNat.isValidChar := c.valid
  have bounds : (0x80 : UInt8).toNat = 0x80 ∧ (0x8F : UInt8).toNat = 0x8F ∧ (0x90 : UInt8).toNat = 0x90 ∧
      (0x9F : UInt8).toNat = 0x9F ∧ (0xA0 : UInt8).toNat = 0xA0 ∧ (0xBF : UInt8).toNat = 0xBF := by decide
  have begins {n m k w : Nat} {low high : UInt8} {bits : Nat} (rest : cropped k c.toNat = w)
      (few : n < 256) (starts : Starts n ⟨1, k + 1, low, high, bits⟩)
      (leads : w / 64 = bits ∧ low.toNat ≤ w % 64 + 0x80 ∧ w % 64 + 0x80 ≤ high.toNat) (same : m = n) :
      ∃ n scan, n < 256 ∧ Starts n scan ∧ scan.Leads c.toNat ∧
        UInt8.ofNat m :: tailBytes (k + 1) c.toNat = UInt8.ofNat n :: tailBytes scan.owed c.toNat := by
    refine ⟨n, _, few, starts, ?_, by rw [same]⟩
    rw [Scan.leads_iff, cropped, rest]
    exact leads
  rw [utf8EncodeChar_eq, if_neg (by omega)]
  by_cases two : c.toNat ≤ 0x7FF
  · rw [if_pos two]
    exact begins (w := c.toNat) rfl (by omega) (.two (n := c.toNat / 64 + 0xC0) (by omega) (by omega))
      (by omega) (by omega)
  by_cases three : c.toNat ≤ 0xFFFF
  · have rest : cropped 1 c.toNat = c.toNat / 64 := rfl
    rw [if_neg two, if_pos three]
    by_cases low : c.toNat < 0x1000
    · exact begins rest (by omega) .threeLow (by omega) (by omega)
    by_cases high : c.toNat / 4096 = 0xD
    · exact begins rest (by omega) .threeHigh (by omega) (by omega)
    · exact begins rest (by omega) (.three (n := c.toNat / 4096 + 0xE0) (by omega) (by omega) (by omega))
        (by omega) (by omega)
  · have rest : cropped 2 c.toNat = c.toNat / 4096 := Nat.div_div_eq_div_mul ..
    rw [if_neg two, if_neg three]
    by_cases low : c.toNat < 0x40000
    · exact begins rest (by omega) .fourLow (by omega) (by omega)
    by_cases high : c.toNat < 0x100000
    · exact begins rest (by omega) (.four (n := c.toNat / 262144 + 0xF0) (by omega) (by omega))
        (by omega) (by omega)
    · exact begins rest (by omega) .fourHigh (by omega) (by omega)

/-- What a first byte leads to are characters that begin with it. -/
theorem firstByte_cases (b : UInt8) :
    (∃ c, firstByte b = .char c ∧ String.utf8EncodeChar c = [b]) ∨
    (∃ scan : Scan, scan.Tight ∧ firstByte b = .more scan ∧ ∀ v, scan.Leads v →
      String.utf8EncodeChar (Char.ofNat v) = b :: tailBytes scan.owed v) ∨
    firstByte b = .refused := by
  rcases starts_or b.toNat with ascii | none | ⟨scan, starts⟩
  · have value : (Char.ofNat b.toNat).toNat = b.toNat := toNat_ofNat (.inl (by omega))
    refine .inl ⟨Char.ofNat b.toNat, by rw [firstByte_eq, if_pos ascii], ?_⟩
    rw [utf8EncodeChar_eq, value, if_pos (by omega), UInt8.ofNat_toNat]
  · refine .inr (.inr ?_)
    rw [firstByte_eq, if_neg (by omega)]
    rcases none with low | high
    · rw [if_pos low.2]
    · rw [if_neg (by omega), if_neg (by omega), if_neg (by omega), if_neg (by omega),
        if_neg (by omega), if_neg (by omega), if_neg (by omega), if_neg (by omega)]
  · obtain ⟨tight, chars⟩ := starts.chars
    rw [UInt8.ofNat_toNat] at chars
    exact .inr (.inl ⟨scan, tight, starts.firstByte, chars⟩)

/-- A character begins with a byte that leads to it. -/
theorem firstByte_encode (c : Char) :
    ∃ b, firstByte b = .char c ∧ String.utf8EncodeChar c = [b] ∨
      ∃ scan : Scan, firstByte b = .more scan ∧ scan.Leads c.toNat ∧
        String.utf8EncodeChar c = b :: tailBytes scan.owed c.toNat := by
  have small {n : Nat} (few : n < 256) : (UInt8.ofNat n).toNat = n := by
    rw [UInt8.toNat_ofNat']
    omega
  by_cases ascii : c.toNat ≤ 0x7F
  · refine ⟨UInt8.ofNat c.toNat, .inl ⟨?_, by rw [utf8EncodeChar_eq, if_pos ascii]⟩⟩
    rw [firstByte_eq, small (by omega), if_pos (by omega), Char.ofNat_toNat]
  · obtain ⟨n, scan, few, starts, leads, spelled⟩ := starts_char c (by omega)
    rw [← small few] at starts
    exact ⟨UInt8.ofNat n, .inr ⟨scan, starts.firstByte, leads, spelled⟩⟩

/-! ## Texts -/

theorem decodeFrom_encode (cs : List Char) (index : Nat) :
    decodeFrom index none (cs.flatMap String.utf8EncodeChar) = .ok cs := by
  induction cs generalizing index with
  | nil => rfl
  | cons c cs ih =>
    rw [List.flatMap_cons]
    obtain ⟨b, ⟨first, bytes⟩ | ⟨scan, first, leads, bytes⟩⟩ := firstByte_encode c
    · rw [bytes, List.singleton_append, decodeFrom, first]
      simp only [ih]
      rfl
    · rw [bytes, List.cons_append, decodeFrom, first]
      simp only [decodeFrom_tail leads, ih, Char.ofNat_toNat]
      rfl

theorem encode_decodeFrom {bytes : List UInt8} {cs : List Char} {index : Nat}
    (read : decodeFrom index none bytes = .ok cs) : bytes = cs.flatMap String.utf8EncodeChar := by
  -- A character takes at least one byte, so what is left is shorter.
  induction size : bytes.length using Nat.strongRecOn generalizing bytes cs index with
  | ind length ih =>
    cases bytes with
    | nil =>
      obtain rfl := Except.ok.inj read
      rfl
    | cons b bytes =>
      rw [decodeFrom] at read
      rcases firstByte_cases b with ⟨c, first, spelled⟩ | ⟨scan, tight, first, spelled⟩ | refused
      · simp only [first] at read
        obtain ⟨chars, behind, rfl⟩ := map_eq_ok read
        have fewer : bytes.length < length := size ▸ Nat.lt_succ_self _
        have rest := ih bytes.length fewer behind rfl
        rw [List.flatMap_cons, spelled, ← rest]
        rfl
      · simp only [first] at read
        obtain ⟨v, later, rest, chars, leads, rfl, behind, rfl⟩ := tail_decodeFrom tight read
        have fewer : rest.length < length := by
          rw [← size, List.length_cons, List.length_append]
          omega
        rw [List.flatMap_cons, spelled v leads, ← ih rest.length fewer behind rfl]
        rfl
      · rw [refused] at read
        cases read

theorem byteList_eq (bytes : ByteArray) : bytes.toList = bytes.data.toList := by
  have loop (i : Nat) (front : List UInt8) :
      ByteArray.toList.loop bytes i front = front.reverse ++ bytes.data.toList.drop i := by
    fun_induction ByteArray.toList.loop bytes i front with
    | case1 i front inside ih =>
      have bound : i < bytes.data.toList.length := by simpa using inside
      have here : bytes.get! i = bytes.data.toList[i] := by simp [ByteArray.get!, inside]
      rw [ih, List.reverse_cons, List.drop_eq_getElem_cons bound, here]
      simp
    | case2 i front outside =>
      rw [List.drop_eq_nil_of_le (by simpa using outside), List.append_nil]
  exact loop 0 []

theorem encode_eq (s : String) : encode s = s.toList.flatMap String.utf8EncodeChar := by
  have bytes : s.toUTF8 = s.toList.utf8Encode := by
    rw [← String.toByteArray_ofList, String.ofList_toList]
    rfl
  rw [encode, byteList_eq, bytes, List.utf8Encode, List.toList_data_toByteArray]

/-- Bytes are read as a text if and only if they are its bytes. -/
theorem decode_iff {bytes : List UInt8} {s : String} : decode bytes = .ok s ↔ bytes = encode s := by
  rw [encode_eq, decode]
  constructor
  · intro read
    obtain ⟨cs, chars, rfl⟩ := map_eq_ok read
    rw [String.toList_ofList]
    exact encode_decodeFrom chars
  · rintro rfl
    rw [decodeFrom_encode]
    exact congrArg Except.ok String.ofList_toList

/-! ## Bytes that are characters -/

theorem le_of_mem_tailBytes {n : Nat} (member : b ∈ tailBytes n v) : 0x80 ≤ b.toNat := by
  induction n with
  | zero => cases member
  | succ n ih =>
    rcases List.mem_cons.1 member with rfl | later
    · rw [toNat_tailByte]
      exact Nat.le_add_left ..
    · exact ih later

/-- A byte below 0x80 is a character of its own. -/
theorem alone_of_mem {c : Char} (ascii : b.toNat < 0x80) (member : b ∈ String.utf8EncodeChar c) :
    String.utf8EncodeChar c = [b] := by
  rw [utf8EncodeChar_eq] at member ⊢
  split at member
  next few => rw [if_pos few, List.mem_singleton.1 member]
  next =>
    exfalso
    repeat' split at member
    all_goals
      rcases List.mem_cons.1 member with rfl | later
      · rw [UInt8.toNat_ofNat'] at ascii
        omega
      · exact Nat.not_le.2 ascii (le_of_mem_tailBytes later)

theorem split_chars (cs : List Char) {front back : List UInt8} (ascii : b.toNat < 0x80)
    (bytes : cs.flatMap String.utf8EncodeChar = front ++ b :: back) :
    ∃ before after : List Char, front = before.flatMap String.utf8EncodeChar ∧
      back = after.flatMap String.utf8EncodeChar := by
  induction cs generalizing front with
  | nil => simp at bytes
  | cons c cs ih =>
    rw [List.flatMap_cons, List.append_eq_append_iff] at bytes
    rcases bytes with ⟨rest, rfl, behind⟩ | ⟨rest, spelled, behind⟩
    · obtain ⟨before, after, rfl, rfl⟩ := ih behind
      exact ⟨c :: before, after, rfl, rfl⟩
    · cases rest with
      | nil =>
        obtain ⟨before, after, none, rfl⟩ := @ih [] behind.symm
        exact ⟨[c], after, by simpa using spelled.symm, rfl⟩
      | cons first rest =>
        obtain ⟨rfl, rfl⟩ := List.cons.inj behind
        have alone := alone_of_mem ascii (c := c) (by simp [spelled])
        rw [alone] at spelled
        have size := congrArg List.length spelled
        simp only [List.length_append, List.length_cons, List.length_nil] at size
        obtain rfl : front = [] := List.length_eq_zero_iff.1 (by omega)
        obtain rfl : rest = [] := List.length_eq_zero_iff.1 (by omega)
        exact ⟨[], cs, rfl, rfl⟩

/-- A text falls into texts around each byte below 0x80. -/
theorem encode_split {s : String} {front back : List UInt8} (ascii : b.toNat < 0x80)
    (bytes : encode s = front ++ b :: back) :
    ∃ before after, front = encode before ∧ back = encode after := by
  rw [encode_eq] at bytes
  obtain ⟨before, after, rfl, rfl⟩ := split_chars s.toList ascii bytes
  exact ⟨String.ofList before, String.ofList after, by rw [encode_eq, String.toList_ofList],
    by rw [encode_eq, String.toList_ofList]⟩

theorem encode_append (s t : String) : encode (s ++ t) = encode s ++ encode t := by
  rw [encode_eq, encode_eq, encode_eq, String.toList_append, List.flatMap_append]

end BlockGraph.Text
