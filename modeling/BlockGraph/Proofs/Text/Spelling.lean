import BlockGraph.Text.Blank
import BlockGraph.Text.Hex
import Mathlib.Data.List.DropRight
import Mathlib.Data.String.Basic

/-!
# Spellings

How a text may spell hexadecimal or decimal digits: between blanks, and behind an optional marker. Each
reader of such texts is described by the spellings that it takes, which say nothing of the order in
which blanks and marker are taken off.

* `isBlankText_iff_trim` — a text of blanks only is one that trimming empties.
* `trimChars_eq_iff` — a trimmed text is what stands between the blanks, and stays as it is (`trim_trim`).
* `splitMarker_trimChars_eq_iff` — the spellings of a body, with a marker and without one.
* `hexDigit?_eq_some_iff`, `byteOfDigits?_eq_some_iff` — digits in either case, and the bytes of two.
* `byteText_eq`, `byteText_lt` — the normal form of a byte is a spelling of it, and keeps the order.
-/

namespace BlockGraph.Text

/-! ## Blanks -/

/-- A text of blanks only. -/
def Blanks (cs : List Char) : Prop := ∀ c ∈ cs, isBlank c = true

/-- A text with no blank at either end. -/
structure Solid (cs : List Char) : Prop where
  first : ∀ c ∈ cs.head?, isBlank c = false
  last : ∀ c ∈ cs.getLast?, isBlank c = false

/-- A text with blanks around it. -/
def Padded (core cs : List Char) : Prop :=
  ∃ front back, cs = front ++ (core ++ back) ∧ Blanks front ∧ Blanks back

variable {core cs front back : List Char}

theorem dropWhile_blanks (blanks : Blanks front) (solid : ∀ c ∈ core.head?, isBlank c = false) :
    (front ++ core).dropWhile isBlank = core := by
  rw [List.dropWhile_append_of_pos blanks]
  cases core with
  | nil => rfl
  | cons c core => simp [solid c rfl]

/-- A text of blanks only is trimmed to nothing, and no other is. -/
theorem trimChars_eq_nil_iff : trimChars cs = [] ↔ Blanks cs := by
  have trimmed : trimChars cs = (cs.dropWhile isBlank).rdropWhile isBlank := rfl
  rw [trimmed, List.rdropWhile_eq_nil_iff]
  constructor
  · intro behind c member
    rw [← List.takeWhile_append_dropWhile (p := isBlank) (l := cs)] at member
    exact (List.mem_append.1 member).elim List.mem_takeWhile_imp (behind c)
  · intro blanks c member
    rw [List.dropWhile_eq_nil_iff.2 blanks] at member
    cases member

theorem isBlankText_iff_trim (s : String) : isBlankText s = true ↔ trim s = "" := by
  rw [isBlankText, List.all_eq_true, trim, String.ofList_eq_empty_iff, trimChars_eq_nil_iff]
  rfl

theorem trimChars_padded (padded : Padded core cs) (solid : Solid core) : trimChars cs = core := by
  obtain ⟨front, back, rfl, before, behind⟩ := padded
  by_cases empty : core = []
  · subst empty
    refine trimChars_eq_nil_iff.2 fun c member => ?_
    exact (List.mem_append.1 member).elim (before c) (behind c)
  · have first : ∀ c ∈ (core ++ back).head?, isBlank c = false := by
      rw [List.head?_append_of_ne_nil _ empty]
      exact solid.first
    have last : ∀ c ∈ core.reverse.head?, isBlank c = false := by
      rw [List.head?_reverse]
      exact solid.last
    have behind : Blanks back.reverse := fun c member => behind c (List.mem_reverse.1 member)
    rw [trimChars, dropWhile_blanks before first, List.reverse_append, dropWhile_blanks behind last,
      List.reverse_reverse]

theorem padded_trimChars (cs : List Char) : Padded (trimChars cs) cs := by
  refine ⟨cs.takeWhile isBlank, (cs.dropWhile isBlank).rtakeWhile isBlank, ?_,
    fun c member => List.mem_takeWhile_imp member, fun c member => List.mem_rtakeWhile_imp member⟩
  have trimmed : trimChars cs = (cs.dropWhile isBlank).rdropWhile isBlank := rfl
  rw [trimmed, List.rdropWhile_append_rtakeWhile, List.takeWhile_append_dropWhile]

theorem solid_trimChars (cs : List Char) : Solid (trimChars cs) := by
  have trimmed : trimChars cs = (cs.dropWhile isBlank).rdropWhile isBlank := rfl
  constructor
  · intro c begins
    have same : (cs.dropWhile isBlank).head? = some c := by
      obtain ⟨back, whole⟩ := List.rdropWhile_prefix isBlank (cs.dropWhile isBlank)
      rw [← whole, ← trimmed, List.head?_append, begins]
      rfl
    have first := List.head?_dropWhile_not isBlank cs
    simpa [same] using first
  · intro c ends
    obtain ⟨front, whole⟩ := List.getLast?_eq_some_iff.1 ends
    have some : (cs.dropWhile isBlank).rdropWhile isBlank ≠ [] := by
      rw [← trimmed, whole]
      simp
    have last := List.rdropWhile_last_not isBlank _ some
    simpa [← trimmed, whole] using last

theorem trimChars_eq_iff : trimChars cs = core ↔ Padded core cs ∧ Solid core := by
  constructor
  · rintro rfl
    exact ⟨padded_trimChars cs, solid_trimChars cs⟩
  · exact fun ⟨padded, solid⟩ => trimChars_padded padded solid

/-- A text with no blank at either end is trimmed to itself. -/
theorem trimChars_solid (solid : Solid core) : trimChars core = core := by
  have none : Blanks [] := fun _ member => nomatch member
  exact trimChars_padded ⟨[], [], (List.append_nil core).symm, none, none⟩ solid

theorem trim_trim (s : String) : trim (trim s) = trim s := by
  rw [trim, trim, String.toList_ofList, trimChars_solid (solid_trimChars _)]

/-! ## Markers -/

/-- An optional `0x` or `0X`, and whether it is there. -/
inductive Marker : Bool → List Char → Prop
  | none : Marker false []
  | lower : Marker true ['0', 'x']
  | upper : Marker true ['0', 'X']

theorem exists_marker (cs : List Char) :
    ∃ marker, cs = marker ++ (splitMarker cs).2 ∧ Marker (splitMarker cs).1 marker := by
  unfold splitMarker
  split
  · exact ⟨_, rfl, .lower⟩
  · exact ⟨_, rfl, .upper⟩
  · exact ⟨_, rfl, .none⟩

/-- A text that does not begin with a marker. -/
def Unmarked (cs : List Char) : Prop := ∀ marker rest, Marker true marker → cs ≠ marker ++ rest

theorem unmarked_of_second {first second : Char} {rest : List Char} (lower : second ≠ 'x')
    (upper : second ≠ 'X') : Unmarked (first :: second :: rest) := by
  rintro marker rest is same
  cases is <;> simp_all

theorem unmarked_of_splitMarker (none : (splitMarker cs).1 = false) : Unmarked cs := by
  rintro marker rest is rfl
  cases is <;> cases none

theorem splitMarker_append {marked : Bool} {marker rest : List Char} (is : Marker marked marker)
    (plain : marked = false → Unmarked rest) : splitMarker (marker ++ rest) = (marked, rest) := by
  cases is with
  | lower | upper => rfl
  | none =>
    obtain ⟨marker, same, is⟩ := exists_marker rest
    cases first : (splitMarker rest).1 with
    | true => exact absurd same (plain rfl marker _ (first ▸ is))
    | false =>
      rw [first] at is
      cases is
      exact Prod.ext first same.symm

/-- A text between blanks, behind a marker or without one. -/
def Presented (marked : Bool) (body cs : List Char) : Prop :=
  ∃ marker, Marker marked marker ∧ (marked = false → Unmarked body) ∧
    Padded (marker ++ body) cs ∧ Solid (marker ++ body)

theorem splitMarker_trimChars_eq_iff {marked : Bool} {body : List Char} :
    splitMarker (trimChars cs) = (marked, body) ↔ Presented marked body cs := by
  constructor
  · intro split
    obtain ⟨marker, same, is⟩ := exists_marker (trimChars cs)
    have trimmed := trimChars_eq_iff.1 same
    rw [split] at is trimmed
    refine ⟨marker, is, ?_, trimmed⟩
    rintro rfl
    cases is
    rw [split] at same
    have whole : trimChars cs = body := same
    exact whole ▸ unmarked_of_splitMarker (by rw [split])
  · rintro ⟨marker, is, plain, trimmed⟩
    rw [trimChars_eq_iff.2 trimmed]
    exact splitMarker_append is plain

theorem dropMarker_trimChars_eq_iff {body : List Char} :
    dropMarker (trimChars cs) = body ↔ ∃ marked, Presented marked body cs := by
  constructor
  · exact fun dropped => ⟨_, splitMarker_trimChars_eq_iff.1 (Prod.ext rfl dropped)⟩
  · exact fun ⟨_, presented⟩ => congrArg Prod.snd (splitMarker_trimChars_eq_iff.2 presented)

/-! ## Digits -/

/-- A hexadecimal digit in either case, and its value. -/
def HexDigit (c : Char) (value : Nat) : Prop :=
  "0123456789abcdef".toList[value]? = some c ∨ "0123456789ABCDEF".toList[value]? = some c

theorem hexDigit?_of_hexDigit {c : Char} {value : Nat} (digit : HexDigit c value) :
    hexDigit? c = some value := by
  have lower : ∀ v < 16, ("0123456789abcdef".toList[v]?).map hexDigit? = some (some v) := by
    decide +kernel
  have upper : ∀ v < 16, ("0123456789ABCDEF".toList[v]?).map hexDigit? = some (some v) := by
    decide +kernel
  rcases digit with listed | listed
  · have read := lower value (List.getElem?_eq_some_iff.1 listed).1
    rw [listed] at read
    exact Option.some.inj read
  · have read := upper value (List.getElem?_eq_some_iff.1 listed).1
    rw [listed] at read
    exact Option.some.inj read

theorem hexDigit_of_toNat {c : Char} {base value : Nat} (same : c.toNat = base + value) (offset : Nat)
    (digit : HexDigit (Char.ofNat (base + value)) (value + offset)) : HexDigit c (value + offset) := by
  rwa [← same, Char.ofNat_toNat] at digit

theorem hexDigit?_eq_some_iff {c : Char} {value : Nat} : hexDigit? c = some value ↔ HexDigit c value := by
  refine ⟨fun read => ?_, hexDigit?_of_hexDigit⟩
  -- The three ranges of digits, each with its place in the alphabets.
  have decimal : ∀ v < 10, HexDigit (Char.ofNat (48 + v)) v := by unfold HexDigit; decide +kernel
  have lower : ∀ v < 6, HexDigit (Char.ofNat (97 + v)) (v + 10) := by unfold HexDigit; decide +kernel
  have upper : ∀ v < 6, HexDigit (Char.ofNat (65 + v)) (v + 10) := by unfold HexDigit; decide +kernel
  have range {first last : Char} (within : (decide (first ≤ c) && decide (c ≤ last)) = true) :
      c.toNat = first.toNat + (c.toNat - first.toNat) ∧
        c.toNat - first.toNat < last.toNat - first.toNat + 1 := by
    simp only [Bool.and_eq_true, decide_eq_true_eq, Char.le_def, UInt32.le_iff_toNat_le] at within
    have low : first.toNat ≤ c.toNat := within.1
    have high : c.toNat ≤ last.toNat := within.2
    omega
  unfold hexDigit? at read
  split at read
  next within =>
    obtain rfl := Option.some.inj read
    obtain ⟨same, below⟩ := range within
    exact hexDigit_of_toNat same 0 (decimal _ below)
  next =>
    split at read
    next within =>
      obtain rfl := Option.some.inj read
      obtain ⟨same, below⟩ := range within
      exact hexDigit_of_toNat same 10 (lower _ below)
    next =>
      split at read
      next within =>
        obtain rfl := Option.some.inj read
        obtain ⟨same, below⟩ := range within
        exact hexDigit_of_toNat same 10 (upper _ below)
      next => cases read

theorem HexDigit.below {c : Char} {value : Nat} (digit : HexDigit c value) : value < 16 :=
  digit.elim (fun listed => (List.getElem?_eq_some_iff.1 listed).1)
    fun listed => (List.getElem?_eq_some_iff.1 listed).1

/-- Neither a blank nor the letter of a marker is a digit. -/
theorem HexDigit.ne {c other : Char} {value : Nat} (digit : HexDigit c value)
    (none : hexDigit? other = none) : c ≠ other := by
  rintro rfl
  rw [hexDigit?_of_hexDigit digit] at none
  cases none

theorem HexDigit.solid {c : Char} {value : Nat} (digit : HexDigit c value) : isBlank c = false := by
  have lower : "0123456789abcdef".toList.all (!isBlank ·) = true := by decide +kernel
  have upper : "0123456789ABCDEF".toList.all (!isBlank ·) = true := by decide +kernel
  rcases digit with listed | listed
  · simpa using List.all_eq_true.1 lower c (List.mem_of_getElem? listed)
  · simpa using List.all_eq_true.1 upper c (List.mem_of_getElem? listed)

/-- Digits are presented by themselves, and behind a marker. -/
theorem presented_digits {marked : Bool} {marker digits : List Char} (is : Marker marked marker)
    (some : digits ≠ []) (digit : ∀ c ∈ digits, ∃ value, HexDigit c value) :
    Presented marked digits (marker ++ digits) := by
  have solid {c : Char} (member : c ∈ digits) : isBlank c = false :=
    (digit c member).elim fun _ => HexDigit.solid
  refine ⟨marker, is, ?_, ⟨[], [], by simp, List.forall_mem_nil _, List.forall_mem_nil _⟩, ?_, ?_⟩
  · rintro rfl other rest true rfl
    cases true
    all_goals
      obtain ⟨value, second⟩ := digit _ (List.mem_cons_of_mem _ List.mem_cons_self)
      exact second.ne (by decide) rfl
  · intro c first
    cases is with
    | none => exact solid (List.mem_of_mem_head? first)
    | lower | upper =>
      obtain rfl := Option.some.inj first
      decide
  · intro c last
    rw [List.getLast?_append_of_ne_nil _ some] at last
    exact solid (List.mem_of_getLast? last)

/-! ## Bytes -/

/-- The byte of two digits. -/
def HexByte (high low : Char) (byte : UInt8) : Prop :=
  ∃ h l, HexDigit high h ∧ HexDigit low l ∧ byte.toNat = 16 * h + l

theorem byteOfDigits?_eq_some_iff {high low : Char} {byte : UInt8} :
    byteOfDigits? high low = some byte ↔ HexByte high low byte := by
  simp only [byteOfDigits?, Option.bind_eq_bind, Option.bind_eq_some_iff, hexDigit?_eq_some_iff]
  constructor
  · rintro ⟨h, first, l, second, same⟩
    obtain rfl := Option.some.inj same
    have low := first.below
    have high := second.below
    refine ⟨h, l, first, second, ?_⟩
    rw [UInt8.toNat_ofNat']
    omega
  · rintro ⟨h, l, first, second, same⟩
    refine ⟨h, first, l, second, congrArg some (UInt8.toNat_inj.1 ?_)⟩
    have low := first.below
    have high := second.below
    rw [UInt8.toNat_ofNat']
    omega

theorem hexDigit_digit {n : Nat} (below : n < 16) : HexDigit (hexDigit n) n :=
  hexDigit?_eq_some_iff.1 (hexDigit?_hexDigit n below)

theorem byteText_eq (byte : UInt8) : ∃ high low, (byteText byte).toList = ['0', 'x', high, low] ∧
    HexByte high low byte := by
  have below : byte.toNat < 256 := byte.toNat_lt
  refine ⟨hexDigit (byte.toNat / 16 % 16), hexDigit (byte.toNat % 16), ?_, _, _,
    hexDigit_digit (Nat.mod_lt _ (by decide)), hexDigit_digit (Nat.mod_lt _ (by decide)), ?_⟩
  · simp [byteText, hexDigits]
  · omega

theorem hexDigit_lt {m n : Nat} (below : n < 16) (before : m < n) : hexDigit m < hexDigit n := by
  have all : ∀ n < 16, ∀ m < n, hexDigit m < hexDigit n := by decide +kernel
  exact all n below m before

/-- The normal forms of bytes are in the order of the bytes. -/
theorem byteText_lt {a b : UInt8} (before : a < b) : byteText a < byteText b := by
  have order : a.toNat < b.toNat := before
  have below : b.toNat < 256 := b.toNat_lt
  simp only [byteText, hexDigits, List.nil_append, List.cons_append, String.lt_iff_toList_lt,
    String.toList_ofList, List.cons_lt_cons_iff]
  refine .inr ⟨trivial, .inr ⟨trivial, ?_⟩⟩
  by_cases high : a.toNat / 16 = b.toNat / 16
  · refine .inr ⟨by rw [high], .inl (hexDigit_lt (Nat.mod_lt _ (by decide)) ?_)⟩
    omega
  · refine .inl (hexDigit_lt (Nat.mod_lt _ (by decide)) ?_)
    omega

end BlockGraph.Text
