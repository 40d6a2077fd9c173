import BlockGraph.Proofs.Text.Spelling
import BlockGraph.Text.Numeral
import Mathlib.Data.List.Forall2
import Mathlib.Data.Nat.Digits.Defs
import Mathlib.Tactic.Linarith
import Mathlib.Tactic.Ring

/-!
# Numerals as texts

What the reader of numerals answers, said of the text as a whole: the number that its digits write, or
what is wrong with the first character that spoils it.

* `Writes`, `Digits`, `Numeral` — digits that write a number, and what reading a text comes to.
* `digits_append`, `foldlM_writes` — one digit after the other, as the reader takes them.
* `readNumeral_eq_iff`, `numeral_ok_iff` — the reader answers as described.
* `writes_toDigits` — every number is written in every radix.
-/

namespace BlockGraph.Text

/-! ## Digits -/

/-- A digit of a radix, and its value. -/
def DigitOf (radix : Nat) (c : Char) (value : Nat) : Prop := HexDigit c value ∧ value < radix

/-- Digits and the number that they write, the most significant one first. -/
def Writes (radix : Nat) (cs : List Char) (n : Nat) : Prop :=
  ∃ values, List.Forall₂ (DigitOf radix) cs.reverse values ∧ n = Nat.ofDigits radix values

variable {radix limit n m d : Nat} {c : Char} {cs front : List Char}

theorem digitBelow?_eq_some_iff : digitBelow? radix c = some d ↔ DigitOf radix c d := by
  simp [digitBelow?, DigitOf, Option.filter_eq_some_iff, hexDigit?_eq_some_iff]

theorem digitBelow?_eq_none_iff : digitBelow? radix c = none ↔ ∀ d, ¬ DigitOf radix c d := by
  simp only [Option.eq_none_iff_forall_ne_some, ne_eq, digitBelow?_eq_some_iff]

theorem writes_nil : Writes radix [] n ↔ n = 0 := by
  simp [Writes]

theorem writes_concat :
    Writes radix (cs ++ [c]) n ↔ ∃ m d, Writes radix cs m ∧ DigitOf radix c d ∧ n = m * radix + d := by
  simp only [Writes, List.reverse_append, List.reverse_singleton, List.singleton_append,
    List.forall₂_cons_left_iff]
  constructor
  · rintro ⟨_, ⟨d, values, digit, digits, rfl⟩, rfl⟩
    refine ⟨_, d, ⟨values, digits, rfl⟩, digit, ?_⟩
    rw [Nat.ofDigits_cons]
    ring
  · rintro ⟨_, d, ⟨values, digits, rfl⟩, digit, rfl⟩
    refine ⟨d :: values, ⟨d, values, digit, digits, rfl⟩, ?_⟩
    rw [Nat.ofDigits_cons]
    ring

theorem Writes.concat (writes : Writes radix cs m) (digit : DigitOf radix c d) :
    Writes radix (cs ++ [c]) (m * radix + d) := writes_concat.2 ⟨m, d, writes, digit, rfl⟩

theorem Writes.digit (writes : Writes radix cs n) (member : c ∈ cs) : ∃ d, DigitOf radix c d := by
  obtain ⟨values, digits, rfl⟩ := writes
  obtain ⟨i, bound, rfl⟩ := List.getElem_of_mem (List.mem_reverse.2 member)
  exact ⟨_, digits.get bound (digits.length_eq ▸ bound)⟩

/-! ## Reading digits -/

/-- What reading digits comes to: their number, or what is wrong with the first one that spoils it. -/
inductive Digits (radix limit : Nat) : List Char → Except NumeralError Nat → Prop
  | number {digits : List Char} {n : Nat} (writes : Writes radix digits n) (within : n ≤ limit) :
      Digits radix limit digits (.ok n)
  | invalid {front : List Char} {n : Nat} (writes : Writes radix front n) (within : n ≤ limit) {c : Char}
      (other : ∀ d, ¬ DigitOf radix c d) (rest : List Char) :
      Digits radix limit (front ++ c :: rest) (.error .invalidDigit)
  | large {front : List Char} {n : Nat} (writes : Writes radix front n) (within : n ≤ limit) {c : Char}
      {m : Nat} (more : Writes radix (front ++ [c]) m) (beyond : limit < m) (rest : List Char) :
      Digits radix limit (front ++ c :: rest) (.error .tooLarge)

/-- Digits behind others that have been read. -/
theorem digits_append (writes : Writes radix front n) (within : n ≤ limit) (cs : List Char) :
    Digits radix limit (front ++ cs) (cs.foldlM (appendDigit radix limit) n) := by
  induction cs generalizing front n with
  | nil =>
    rw [List.append_nil]
    exact .number writes within
  | cons c cs ih =>
    rw [List.foldlM_cons, appendDigit]
    cases read : digitBelow? radix c with
    | none => exact .invalid writes within (digitBelow?_eq_none_iff.1 read) cs
    | some d =>
      have more := writes.concat (digitBelow?_eq_some_iff.1 read)
      by_cases fits : n * radix + d ≤ limit
      · have rest := ih more fits
        simpa [fits, bind, Except.bind] using rest
      · simp only [fits, if_false]
        exact .large writes within more (Nat.lt_of_not_le fits) cs

theorem foldlM_writes (writes : Writes radix cs n) (within : n ≤ limit) :
    cs.foldlM (appendDigit radix limit) 0 = .ok n := by
  -- From the last digit on: a number is not smaller than the one without its last digit.
  induction cs using List.reverseRecOn generalizing n with
  | nil => rw [writes_nil.1 writes]; rfl
  | append_singleton cs c ih =>
    obtain ⟨m, d, front, digit, rfl⟩ := writes_concat.1 writes
    have positive : 0 < radix := Nat.zero_lt_of_lt digit.2
    have fits : m ≤ limit := by nlinarith
    rw [List.foldlM_append, ih front fits]
    simp [appendDigit, digitBelow?_eq_some_iff.2 digit, within, bind, Except.bind, pure, Except.pure]

theorem Writes.unique (writes : Writes radix cs n) (other : Writes radix cs m) : n = m := by
  have left := foldlM_writes writes (Nat.le_max_left n m)
  have right := foldlM_writes other (Nat.le_max_right n m)
  exact Except.ok.inj (left.symm.trans right)

theorem Digits.foldlM {outcome : Except NumeralError Nat} (digits : Digits radix limit cs outcome) :
    cs.foldlM (appendDigit radix limit) 0 = outcome := by
  cases digits with
  | number writes within => exact foldlM_writes writes within
  | invalid writes within other rest =>
    rw [List.foldlM_append, foldlM_writes writes within]
    simp [appendDigit, digitBelow?_eq_none_iff.2 other, bind, Except.bind]
  | @large front n writes within c m more beyond rest =>
    obtain ⟨k, d, before, digit, rfl⟩ := writes_concat.1 more
    obtain rfl := before.unique writes
    rw [List.foldlM_append, foldlM_writes writes within]
    simp [appendDigit, digitBelow?_eq_some_iff.2 digit, bind, Except.bind, Nat.not_le.2 beyond]

/-! ## Reading numerals -/

/-- The digits behind an optional plus sign. -/
inductive Unsigned : List Char → List Char → Prop
  | plus (digits : List Char) : Unsigned ('+' :: digits) digits
  | bare {digits : List Char} (first : digits.head? ≠ some '+') : Unsigned digits digits

/-- What reading a numeral comes to. -/
inductive Numeral (radix limit : Nat) : List Char → Except NumeralError Nat → Prop
  | empty : Numeral radix limit [] (.error .empty)
  | sign : Numeral radix limit ['+'] (.error .invalidDigit)
  | digits {cs digits : List Char} (unsigned : Unsigned cs digits) (some : digits ≠ [])
      {outcome : Except NumeralError Nat} (read : Digits radix limit digits outcome) :
      Numeral radix limit cs outcome

theorem numeral_readNumeral (radix limit : Nat) (cs : List Char) :
    Numeral radix limit cs (readNumeral radix limit cs) := by
  have nothing : Writes radix [] 0 := writes_nil.2 rfl
  have read := digits_append nothing (Nat.zero_le limit)
  unfold readNumeral
  split
  · exact .empty
  · exact .sign
  next digits lone => exact .digits (.plus digits) (fun none => lone (by rw [none])) (read digits)
  next empty _ signed =>
    refine .digits (.bare fun first => ?_) empty (read cs)
    obtain ⟨digits, same⟩ := List.head?_eq_some_iff.1 first
    exact signed digits same

theorem Numeral.readNumeral {outcome : Except NumeralError Nat}
    (numeral : Numeral radix limit cs outcome) : Text.readNumeral radix limit cs = outcome := by
  cases numeral with
  | empty => rfl
  | sign => rfl
  | @digits _ digits unsigned some _ read =>
    rw [← read.foldlM]
    cases digits with
    | nil => exact absurd rfl some
    | cons c digits =>
      cases unsigned with
      | plus => rfl
      | bare first =>
        have other : c ≠ '+' := fun same => first (congrArg Option.some same)
        unfold Text.readNumeral
        split <;> simp_all

theorem readNumeral_eq_iff {outcome : Except NumeralError Nat} :
    readNumeral radix limit cs = outcome ↔ Numeral radix limit cs outcome :=
  ⟨fun read => read ▸ numeral_readNumeral radix limit cs, Numeral.readNumeral⟩

theorem numeral_ok_iff : Numeral radix limit cs (.ok n) ↔
    ∃ digits, Unsigned cs digits ∧ digits ≠ [] ∧ Writes radix digits n ∧ n ≤ limit := by
  constructor
  · rintro ⟨⟩
    next digits some unsigned read =>
      cases read with
      | number writes within => exact ⟨digits, unsigned, some, writes, within⟩
  · rintro ⟨digits, unsigned, some, writes, within⟩
    exact .digits unsigned some (.number writes within)

/-! ## Numerals of a number -/

theorem writes_toDigits (large : 1 < radix) (small : radix ≤ 16) (n : Nat) :
    Writes radix (Nat.toDigits radix n) n := by
  have digit {d : Nat} (below : d < radix) : DigitOf radix d.digitChar d := by
    have all : ∀ d < 16, HexDigit (Nat.digitChar d) d := by unfold HexDigit; decide +kernel
    exact ⟨all d (Nat.lt_of_lt_of_le below small), below⟩
  induction n using Nat.strongRecOn with
  | _ n ih =>
    by_cases short : n < radix
    · rw [Nat.toDigits_of_lt_base short]
      have nothing : Writes radix [] 0 := writes_nil.2 rfl
      simpa using nothing.concat (digit short)
    · have long : radix ≤ n := Nat.le_of_not_lt short
      have shorter : n / radix < n := Nat.div_lt_self (by omega) large
      rw [Nat.toDigits_of_base_le large long]
      refine writes_concat.2 ⟨n / radix, n % radix, ih _ shorter, digit (Nat.mod_lt n (by omega)), ?_⟩
      rw [Nat.mul_comm, Nat.div_add_mod]

theorem Writes.unsigned (writes : Writes radix cs n) : Unsigned cs cs := by
  refine .bare fun first => ?_
  obtain ⟨d, digit, _⟩ := writes.digit (List.mem_of_mem_head? first)
  exact digit.ne (by decide) rfl

end BlockGraph.Text
