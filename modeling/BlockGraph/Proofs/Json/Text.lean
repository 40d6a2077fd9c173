import BlockGraph.Json.Codec

/-!
# Reading what was written

The text of a value on one line reads as that value, at any depth of nesting, and it is one line
indeed. Of numbers this holds of integers of 64 bits; a floating-point number need not be read as the
one that was written.

* `Number.isWord`, `Json.inWords` — numbers that are integers of 64 bits, and values with no others
  (`Json.holdsOnly`).
* `read_quote`, `read_number` — what a string and a number leave behind in the reader.
* `read_compact` — what a value leaves behind, where more of the text follows.
* `ofText_compact`, `newline_not_mem_compact` — the text reads as the value; it is one line.
-/

namespace BlockGraph

/-! ## Integers of 64 bits -/

/-- Whether a number is an integer of 64 bits, with or without a sign. A negative zero has a sign, which
no integer keeps. -/
def Number.isWord : Number → Bool
  | .int n => -Binary64.signWeight ≤ n && n ≤ Text.maxWord
  | .real x => x == (Binary64.ofNat 0).neg

namespace Json

mutual
/-- Whether a value holds only numbers of a kind. -/
def holdsOnly (p : Number → Bool) : Json → Bool
  | .null | .bool _ | .str _ => true
  | .num n => p n
  | .arr items => allHoldOnly p items
  | .obj members => membersHoldOnly p members

def allHoldOnly (p : Number → Bool) : List Json → Bool
  | [] => true
  | v :: vs => v.holdsOnly p && allHoldOnly p vs

def membersHoldOnly (p : Number → Bool) : List (String × Json) → Bool
  | [] => true
  | (_, v) :: ms => v.holdsOnly p && membersHoldOnly p ms
end

/-- Whether all numbers of a value are integers of 64 bits. -/
abbrev inWords (v : Json) : Bool := v.holdsOnly Number.isWord

abbrev allInWords (vs : List Json) : Bool := allHoldOnly Number.isWord vs

abbrev membersInWords (ms : List (String × Json)) : Bool := membersHoldOnly Number.isWord ms

theorem nat_inWords {n : Nat} (within : n ≤ Text.maxWord) : (Json.nat n).inWords = true := by
  have low : -(Binary64.signWeight : Int) ≤ n := by omega
  simp [Json.nat, holdsOnly, Number.isWord, low, within]

theorem allInWords_iff {vs : List Json} : allInWords vs = true ↔ ∀ v ∈ vs, v.inWords = true := by
  induction vs with
  | nil => simp [allHoldOnly]
  | cons v vs ih => simp [allHoldOnly, ih]

theorem membersInWords_iff {ms : List (String × Json)} :
    membersInWords ms = true ↔ ∀ m ∈ ms, m.2.inWords = true := by
  induction ms with
  | nil => simp [membersHoldOnly]
  | cons m ms ih =>
    obtain ⟨key, v⟩ := m
    simp [membersHoldOnly, ih]

end Json

/-! ## Digits -/

namespace NumberScan

variable {s t : NumberScan} {c : Char} {n : Nat} {negative : Bool}

/-- The scan of a number after characters that belong to it. -/
def pushAll (s : NumberScan) (cs : List Char) : Option NumberScan :=
  cs.foldlM (fun s c => match s.step c with | .more s => some s | _ => none) s

theorem pushAll_append (s : NumberScan) (cs ds : List Char) :
    s.pushAll (cs ++ ds) = (s.pushAll cs).bind fun s => s.pushAll ds := List.foldlM_append

theorem digit?_digitChar {d : Nat} (below : d < 10) : digit? d.digitChar = some d := by
  have all : ∀ d < 10, digit? (Nat.digitChar d) = some d := by decide
  exact all d below

/-- The digits gather to the number, if that is one of 64 bits. -/
def Gathers (digits : List Nat) (n : Nat) : Prop :=
  n ≤ Text.maxWord → Literal.gather 0 digits = (n, [])

theorem gather_append {m d : Nat} (digits : List Nat) (start : Nat)
    (gathered : Literal.gather start digits = (m, [])) (fits : m * 10 + d ≤ Text.maxWord) :
    Literal.gather start (digits ++ [d]) = (m * 10 + d, []) := by
  induction digits generalizing start with
  | nil =>
    obtain rfl := (Prod.mk.inj gathered).1
    simp [Literal.gather, fits]
  | cons e digits ih =>
    rw [Literal.gather] at gathered
    split at gathered
    next room =>
      rw [List.cons_append, Literal.gather, if_pos room]
      exact ih _ gathered
    next => cases gathered

/-- The digits of a number are read one after another, and none of them is a leading zero. -/
theorem pushAll_natChars (n : Nat) (negative : Bool) : ∃ digits, Gathers digits n ∧
    (⟨.sign, ⟨negative, [], none, none⟩⟩ : NumberScan).pushAll (Json.natChars n) =
      some ⟨if n = 0 then .zero else .whole, ⟨negative, digits, none, none⟩⟩ := by
  -- By the number without its last digit. The state that is reached tells a lone zero from a number
  -- to which digits may be added.
  induction n using Nat.strongRecOn with
  | _ n ih =>
  by_cases short : n < 10
  · refine ⟨[n], fun fits => by simp [Literal.gather, fits], ?_⟩
    rw [Json.natChars, Nat.toDigits_of_lt_base short]
    simp only [pushAll, List.foldlM_cons, List.foldlM_nil, step, digit?_digitChar short]
    rfl
  · have long : 10 ≤ n := Nat.le_of_not_lt short
    have positive : n / 10 ≠ 0 := by omega
    have last : n % 10 < 10 := Nat.mod_lt n (by decide)
    obtain ⟨digits, gathers, scanned⟩ := ih (n / 10) (by omega)
    refine ⟨digits ++ [n % 10], fun fits => ?_, ?_⟩
    · have whole : n / 10 * 10 + n % 10 = n := by omega
      rw [gather_append digits 0 (gathers (by omega)) (by omega), whole]
    · rw [Json.natChars, Nat.toDigits_of_base_le (by decide) long, pushAll_append]
      rw [Json.natChars] at scanned
      rw [scanned, if_neg positive, if_neg (by omega)]
      simp only [pushAll, Option.bind_some, List.foldlM_cons, List.foldlM_nil, step,
        digit?_digitChar last]
      rfl

/-- Characters that spell a number up to a place where it may end. -/
def Spells (cs : List Char) (n : Number) : Prop :=
  ∃ c rest s t, cs = c :: rest ∧ start? c = some s ∧ s.pushAll rest = some t ∧
    t.result? = some (.num (some n))

theorem start?_minus : start? '-' = some ⟨.sign, ⟨true, [], none, none⟩⟩ := rfl

theorem start?_digit (other : c ≠ '-') {rest : List Char}
    (scanned : (⟨.sign, ⟨false, [], none, none⟩⟩ : NumberScan).pushAll (c :: rest) = some t) :
    ∃ s, start? c = some s ∧ s.pushAll rest = some t := by
  rw [start?, if_neg other]
  cases first : step ⟨.sign, ⟨false, [], none, none⟩⟩ c with
  | more s =>
    refine ⟨s, rfl, ?_⟩
    simpa only [pushAll, List.foldlM_cons, first, Option.bind_eq_bind, Option.bind_some] using scanned
  | last | after | fault =>
    simp only [pushAll, List.foldlM_cons, first, Option.bind_eq_bind, Option.bind_none] at scanned
    cases scanned

theorem natChars_digit {c : Char} (member : c ∈ Json.natChars n) : c.isDigit = true :=
  Nat.isDigit_of_mem_toDigits (by decide) (by decide) member

/-- Where a number may end, whole digits are its value. -/
theorem result?_whole (digits : List Nat) : result? ⟨if n = 0 then .zero else .whole,
    ⟨negative, digits, none, none⟩⟩ = some (.num (Literal.value ⟨negative, digits, none, none⟩)) := by
  split <;> rfl

theorem natChars_spells (fits : n ≤ Text.maxWord) : Spells (Json.natChars n) (.int n) := by
  obtain ⟨digits, gathers, scanned⟩ := pushAll_natChars n false
  have value : Literal.value ⟨false, digits, none, none⟩ = some (.int n) := by
    simp [Literal.value, gathers fits, Literal.isWhole]
  cases shape : Json.natChars n with
  | nil => exact absurd shape Nat.toDigits_ne_nil
  | cons c rest =>
    -- The sign of a number that has none is decided by its first character.
    have other : c ≠ '-' := by
      rintro rfl
      have digit := natChars_digit (n := n) (c := '-') (shape ▸ List.mem_cons_self)
      exact absurd digit (by decide)
    rw [shape] at scanned
    obtain ⟨s, start, rest⟩ := start?_digit other scanned
    exact ⟨c, _, s, _, rfl, start, rest, (result?_whole digits).trans (by rw [value])⟩

theorem minus_spells (positive : n ≠ 0) (fits : n ≤ Binary64.signWeight) :
    Spells ('-' :: Json.natChars n) (.int (-n)) := by
  have word : n ≤ Text.maxWord := Nat.le_trans fits (by decide)
  obtain ⟨digits, gathers, scanned⟩ := pushAll_natChars n true
  have value : Literal.value ⟨true, digits, none, none⟩ = some (.int (-n)) := by
    simp [Literal.value, gathers word, Literal.isWhole, positive, fits]
  exact ⟨'-', _, _, _, rfl, start?_minus, scanned, (result?_whole digits).trans (by rw [value])⟩

theorem numberChars_spells {number : Number} (word : number.isWord = true) :
    Spells (Json.numberChars number) number := by
  cases number with
  | real x =>
    -- A negative zero is written with a point.
    obtain rfl : x = (Binary64.ofNat 0).neg := beq_iff_eq.1 word
    have value : Literal.value ⟨true, [0], some [0], none⟩ =
        some (.real (Binary64.ofNat 0).neg) := by decide +kernel
    exact ⟨'-', ['0', '.', '0'], _, ⟨.fraction, ⟨true, [0], some [0], none⟩⟩, by decide +kernel,
      start?_minus, by decide +kernel, congrArg (some ∘ Doc.num) value⟩
  | int value =>
    simp only [Number.isWord, Bool.and_eq_true, decide_eq_true_eq] at word
    cases value with
    | ofNat n => exact natChars_spells (by simpa using word.2)
    | negSucc n =>
      have fits : n + 1 ≤ Binary64.signWeight := by
        have low := word.1
        omega
      exact minus_spells (Nat.succ_ne_zero n) fits

/-- A character that goes on with a number that might have ended before it. -/
def Continues (c : Char) : Prop := (digit? c).isSome ∨ c = '.' ∨ c = 'e' ∨ c = 'E'

end NumberScan

/-! ## The reader -/

namespace Reader

open NumberScan

variable {stack outer : List Frame} {c : Char} {doc : Doc}

/-- Where a value may begin. -/
def Ready : List Frame → Prop
  | [] | .items _ .itemOrEnd :: _ | .items _ .item :: _ | .members _ (.value _) :: _ => True
  | _ => False

/-- What may stand behind a value inside a container. -/
def Delimits (c : Char) : Prop := c = ',' ∨ c = ']' ∨ c = '\x7d' ∨ c = '\n'

theorem stepGap_ready (ready : Ready stack) (solid : isGap c = false) (inside : c ≠ ']') :
    stepGap stack c = beginValue stack c := by
  match stack, ready with
  | [], _ | .members _ (.value _) :: _, _ | .items _ .item :: _, _ => simp [stepGap, solid]
  | .items _ .itemOrEnd :: _, _ => simp [stepGap, solid, inside]

theorem read_cons (r : Reader) (c : Char) (cs : List Char) :
    r.read ((c :: cs).map some) = (r.step (some c)).read (cs.map some) := rfl

theorem read_append_chars (r : Reader) (cs ds : List Char) :
    r.read ((cs ++ ds).map some) = (r.read (cs.map some)).read (ds.map some) := by
  rw [List.map_append, read_append]

/-! ## Numbers -/

theorem read_pushAll {s t : NumberScan} {cs : List Char} (scanned : s.pushAll cs = some t) :
    (reading stack (.number s)).read (cs.map some) = .reading stack (.number t) := by
  induction cs generalizing s with
  | nil =>
    obtain rfl := Option.some.inj scanned
    rfl
  | cons c cs ih =>
    rw [pushAll, List.foldlM_cons] at scanned
    cases next : s.step c with
    | more u =>
      simp only [next, Option.bind_eq_bind, Option.bind_some] at scanned
      have first : (reading stack (.number s)).step (some c) = .reading stack (.number u) := by
        simp only [step, next]
      rw [read_cons, first]
      exact ih scanned
    | last | after | fault =>
      simp only [next, Option.bind_eq_bind, Option.bind_none] at scanned
      cases scanned

theorem Delimits.ends (delimits : Delimits c) : ¬ Continues c := by
  rcases delimits with rfl | rfl | rfl | rfl <;> unfold Continues <;> decide

/-- A character that does not go on with a number ends it, where it may end. -/
theorem step_end {t : NumberScan} (result : t.result? = some doc) (ends : ¬ Continues c) :
    t.step c = .after doc := by
  have ended : t.ended = .after doc := by rw [ended, result]
  simp only [Continues, not_or, Bool.not_eq_true, Option.isSome_eq_false_iff, Option.isNone_iff_eq_none] at ends
  obtain ⟨digit, point, lower, upper⟩ := ends
  have sign : t.stage ≠ .mark := fun stage => by simp [result?, stage] at result
  unfold NumberScan.step
  rw [digit]
  simpa [point, lower, upper, sign] using ended

theorem beginValue_number {s : NumberScan} (started : start? c = some s) (stack : List Frame) :
    beginValue stack c = .reading stack (.number s) := by
  have other {d : Char} (none : start? d = none) : c ≠ d := fun same => by
    rw [same, none] at started
    cases started
  unfold beginValue
  split
  case h_7 => rw [started]
  -- No other value begins with a character that begins a number.
  all_goals exact absurd rfl (other (by decide))

/-- Between two tokens a value has been delivered. -/
theorem deliver_lexeme {lexeme : Lexeme} (delivered : deliver stack doc = .reading outer lexeme) :
    lexeme = .gap := by
  unfold deliver at delivered
  split at delivered <;> simp_all [halt]

theorem deliver_complete {whole : Doc} {trailing : Bool}
    (delivered : deliver stack doc = .complete whole trailing) : trailing = false := by
  unfold deliver at delivered
  split at delivered <;> simp_all [halt]

/-- Behind a complete number the reader goes on as if the number had been handed over before. -/
theorem step_number_after {scan : NumberScan} (ended : scan.step c = .after doc) :
    step (.reading stack (.number scan)) (some c) = step (deliver stack doc) (some c) := by
  simp only [step, ended]
  cases delivered : deliver stack doc with
  | halted => rfl
  | reading stack lexeme =>
    obtain rfl := deliver_lexeme delivered
    rfl
  | complete doc trailing =>
    obtain rfl := deliver_complete delivered
    rfl

/-- A number at the end of the text. -/
theorem finish_number {scan : NumberScan} (result : scan.result? = some doc) :
    finish (.reading stack (.number scan)) = (deliver stack doc).finish := by
  simp only [finish, result]
  cases delivered : deliver stack doc with
  | halted => rfl
  | reading stack lexeme =>
    obtain rfl := deliver_lexeme delivered
    rfl
  | complete doc trailing =>
    obtain rfl := deliver_complete delivered
    rfl

theorem deliver_ready (ready : Ready stack) (text : Option String) :
    deliverString stack text = deliver stack (.str text) := by
  match stack, ready with
  | [], _ | .members _ (.value _) :: _, _ | .items _ .item :: _, _ | .items _ .itemOrEnd :: _, _ => rfl

/-- The characters of a number are read up to its end. -/
theorem read_spelled {number : Number} {cs : List Char} (spells : Spells cs number) (ready : Ready stack) :
    ∃ t, (reading stack .gap).read (cs.map some) = .reading stack (.number t) ∧
      t.result? = some (.num (some number)) := by
  obtain ⟨first, more, s, t, rfl, started, scanned, result⟩ := spells
  have other {d : Char} (none : start? d = none) : first ≠ d := fun same => by
    rw [same, none] at started
    cases started
  have solid : isGap first = false := by
    simp [isGap, other (d := ' ') (by decide), other (d := '\n') (by decide),
      other (d := '\t') (by decide), other (d := '\r') (by decide)]
  have begun : (reading stack .gap).step (some first) = .reading stack (.number s) :=
    (stepGap_ready ready solid (other (by decide))).trans (beginValue_number started stack)
  exact ⟨t, by rw [read_cons, begun, read_pushAll scanned], result⟩

/-- The number that characters spell, where a delimiter follows. -/
theorem read_number {number : Number} {cs : List Char} (spells : Spells cs number)
    (ready : Ready stack) (delimits : Delimits c) (rest : List Char) :
    (reading stack .gap).read ((cs ++ c :: rest).map some) =
      (deliver stack (.num (some number))).read ((c :: rest).map some) := by
  obtain ⟨t, scanned, result⟩ := read_spelled spells ready
  rw [read_append_chars, scanned, read_cons, read_cons,
    step_number_after (step_end result delimits.ends)]

/-- The number that characters spell, where what follows does not go on with it. -/
theorem finish_spelled {number : Number} {cs back : List Char} (spells : Spells cs number)
    (ready : Ready stack) (ends : ∀ c ∈ back.head?, ¬ Continues c) :
    ((reading stack .gap).read ((cs ++ back).map some)).finish =
      ((deliver stack (.num (some number))).read (back.map some)).finish := by
  obtain ⟨t, scanned, result⟩ := read_spelled spells ready
  rw [read_append_chars, scanned]
  cases back with
  | nil => exact finish_number result
  | cons c back => rw [read_cons, read_cons, step_number_after (step_end result (ends c rfl))]

/-! ## Strings -/

section
variable (acc : List Char)

theorem step_unicode {owed value d : Nat} (hex : d < 16) (more : 1 < owed) :
    (reading stack (.string ⟨.unicode owed value, acc, none, true⟩)).step (some (Text.hexDigit d)) =
      .reading stack (.string ⟨.unicode (owed - 1) (value * 16 + d), acc, none, true⟩) := by
  simp only [step, StringScan.step, Text.hexDigit?_hexDigit d hex, if_neg (Nat.not_le.2 more)]

theorem step_unicode_last {value d : Nat} (hex : d < 16) (control : value * 16 + d < 0x20) :
    (reading stack (.string ⟨.unicode 1 value, acc, none, true⟩)).step (some (Text.hexDigit d)) =
      .reading stack (.string ⟨.plain, Char.ofNat (value * 16 + d) :: acc, none, true⟩) := by
  have low : ¬ 0xD800 ≤ value * 16 + d := by omega
  have lower : ¬ 0xDC00 ≤ value * 16 + d := by omega
  simp [step, StringScan.step, Text.hexDigit?_hexDigit d hex, StringScan.pushUnit, low, lower,
    StringScan.push]

/-- A character as it is written inside a string reads as that character. -/
theorem read_escape (c : Char) :
    (reading stack (.string ⟨.plain, acc, none, true⟩)).read ((Json.escape c).map some) =
      .reading stack (.string ⟨.plain, c :: acc, none, true⟩) := by
  unfold Json.escape
  split
  case h_8 quote backslash _ _ _ _ _ =>
    split
    next control =>
      -- Only the last two of the four digits count.
      have digits : Text.hexDigits 4 c.toNat =
          [Text.hexDigit 0, Text.hexDigit 0, Text.hexDigit (c.toNat / 16), Text.hexDigit (c.toNat % 16)] := by
        have first : c.toNat / 16 / 16 / 16 % 16 = 0 := by omega
        have second : c.toNat / 16 / 16 % 16 = 0 := by omega
        have third : c.toNat / 16 % 16 = c.toNat / 16 := by omega
        simp only [Text.hexDigits, first, second, third]
        rfl
      have whole : (0 * 16 + 0) * 16 + c.toNat / 16 = c.toNat / 16 := by omega
      have value : c.toNat / 16 * 16 + c.toNat % 16 = c.toNat := by omega
      have began : (reading stack (.string ⟨.plain, acc, none, true⟩)).read (['\\', 'u'].map some) =
          .reading stack (.string ⟨.unicode 4 0, acc, none, true⟩) := rfl
      have split : '\\' :: 'u' :: Text.hexDigits 4 c.toNat = ['\\', 'u'] ++ Text.hexDigits 4 c.toNat := rfl
      rw [split, read_append_chars, began, digits, read_cons, step_unicode acc (by decide) (by decide),
        read_cons, step_unicode acc (by decide) (by decide), read_cons,
        step_unicode acc (by omega) (by decide), read_cons,
        step_unicode_last acc (by omega) (by omega)]
      simp only [Nat.zero_mul, Nat.zero_add, value, Char.ofNat_toNat]
      rfl
    next plain =>
      have quote : c ≠ '"' := fun same => quote same
      have backslash : c ≠ '\\' := fun same => backslash same
      rw [read_cons]
      simp only [step, StringScan.step, if_neg quote, if_neg backslash, if_neg plain]
      rfl
  all_goals rfl

theorem read_escapes (cs : List Char) :
    (reading stack (.string ⟨.plain, acc, none, true⟩)).read ((cs.flatMap Json.escape).map some) =
      .reading stack (.string ⟨.plain, cs.reverse ++ acc, none, true⟩) := by
  induction cs generalizing acc with
  | nil => rfl
  | cons c cs ih =>
    rw [List.flatMap_cons, read_append_chars, read_escape, ih]
    simp

end

/-- A string as it is written, once its quote has been read. -/
theorem read_quoted (text : String) :
    (reading stack (.string .start)).read ((text.toList.flatMap Json.escape ++ ['"']).map some) =
      deliverString stack (some text) := by
  have ended : (reading stack (.string ⟨.plain, text.toList.reverse, none, true⟩)).read
      (['"'].map some) = deliverString stack (some (String.ofList text.toList.reverse.reverse)) := rfl
  rw [read_append_chars, StringScan.start, read_escapes, List.append_nil, ended, List.reverse_reverse,
    String.ofList_toList]

theorem read_quote (ready : Ready stack) (text : String) :
    (reading stack .gap).read ((Json.quote text).map some) = deliver stack (.str (some text)) := by
  have begun : (reading stack .gap).step (some '"') = .reading stack (.string .start) :=
    stepGap_ready ready (by decide) (by decide)
  rw [Json.quote, read_cons, begun, read_quoted, deliver_ready ready]

/-- A string where an object waits for a key. -/
theorem read_key {done : List (Option String × Doc)} {wait : MembersWait}
    (waits : wait = .keyOrEnd ∨ wait = .key) (key : String) :
    (reading (.members done wait :: outer) .gap).read ((Json.quote key).map some) =
      .reading (.members done (.colon (some key)) :: outer) .gap := by
  rw [Json.quote, read_cons]
  rcases waits with rfl | rfl
  · exact read_quoted key
  · exact read_quoted key

/-! ## Values -/

theorem compactMoreItems_cons (vs : List Json) :
    ∃ c rest, Json.compactMoreItems vs = c :: rest ∧ Delimits c := by
  cases vs with
  | nil => exact ⟨']', [], rfl, .inr (.inl rfl)⟩
  | cons v vs => exact ⟨',', _, rfl, .inl rfl⟩

theorem compactMoreMembers_cons (ms : List (String × Json)) :
    ∃ c rest, Json.compactMoreMembers ms = c :: rest ∧ Delimits c := by
  cases ms with
  | nil => exact ⟨'\x7d', [], rfl, .inr (.inr (.inl rfl))⟩
  | cons m ms => exact ⟨',', _, rfl, .inl rfl⟩

/-- What follows a value that needs no delimiter. -/
theorem read_on {cs : List Char} (whole : (reading stack .gap).read (cs.map some) = deliver stack doc)
    (rest : List Char) :
    (reading stack .gap).read ((cs ++ rest).map some) = (deliver stack doc).read (rest.map some) := by
  rw [read_append_chars, whole]

theorem read_word {meaning : Doc} {cs : List Char} (ready : Ready stack) (solid : isGap c = false)
    (inside : c ≠ ']') (begins : beginValue stack c = .reading stack (.word cs meaning))
    (word : (reading stack (.word cs meaning)).read (cs.map some) = deliver stack meaning) :
    (reading stack .gap).read ((c :: cs).map some) = deliver stack meaning := by
  have begun : (reading stack .gap).step (some c) = .reading stack (.word cs meaning) :=
    (stepGap_ready ready solid inside).trans begins
  rw [read_cons, begun, word]

-- A number ends only at the character behind it, so a value is read with a delimiter to come. What follows
-- the last item or member begins with one, and the outermost value is an object, which ends by itself.
mutual
/-- What a value leaves behind, where a delimiter follows. -/
theorem read_compact : (v : Json) → v.inWords = true → {stack : List Frame} → Ready stack →
    {c : Char} → Delimits c → (rest : List Char) →
    (reading stack .gap).read ((v.compactChars ++ c :: rest).map some) =
      (deliver stack v.toDoc).read ((c :: rest).map some)
  | .null, _, _, ready, _, _, _ => read_on (read_word ready (by decide) (by decide) rfl rfl) _
  | .bool true, _, _, ready, _, _, _ => read_on (read_word ready (by decide) (by decide) rfl rfl) _
  | .bool false, _, _, ready, _, _, _ => read_on (read_word ready (by decide) (by decide) rfl rfl) _
  | .num _, words, _, ready, _, delimits, rest => read_number (numberChars_spells words) ready delimits rest
  | .str text, _, _, ready, _, _, _ => read_on (read_quote ready text) _
  | .arr items, words, stack, ready, _, _, _ => by
    have begun : (reading stack .gap).step (some '[') = .reading (.items [] .itemOrEnd :: stack) .gap :=
      stepGap_ready ready (by decide) (by decide)
    refine read_on ?_ _
    rw [Json.compactChars, read_cons, begun, read_items items words]
    rfl
  | .obj members, words, stack, ready, _, _, _ => by
    have begun : (reading stack .gap).step (some '\x7b') =
        .reading (.members [] .keyOrEnd :: stack) .gap := stepGap_ready ready (by decide) (by decide)
    refine read_on ?_ _
    rw [Json.compactChars, read_cons, begun, read_members members words]
    rfl

theorem read_items : (vs : List Json) → Json.allInWords vs = true → {outer : List Frame} →
    (reading (.items [] .itemOrEnd :: outer) .gap).read ((Json.compactItems vs).map some) =
      deliver outer (.arr (Json.toDocs vs) true)
  | [], _, _ => rfl
  | v :: vs, words, outer => by
    obtain ⟨word, words⟩ := Bool.and_eq_true_iff.1 words
    obtain ⟨c, rest, more, delimits⟩ := compactMoreItems_cons vs
    rw [Json.compactItems, more, read_compact v word (by trivial) delimits, ← more]
    exact read_moreItems vs words [v.toDoc]

theorem read_moreItems : (vs : List Json) → Json.allInWords vs = true → (done : List Doc) →
    {outer : List Frame} →
    (reading (.items done .separator :: outer) .gap).read ((Json.compactMoreItems vs).map some) =
      deliver outer (.arr (done.reverse ++ Json.toDocs vs) true)
  | [], _, done, outer => by
    rw [Json.toDocs, List.append_nil]
    rfl
  | v :: vs, words, done, outer => by
    obtain ⟨word, words⟩ := Bool.and_eq_true_iff.1 words
    obtain ⟨c, rest, more, delimits⟩ := compactMoreItems_cons vs
    have separated : (reading (.items done .separator :: outer) .gap).step (some ',') =
        .reading (.items done .item :: outer) .gap := rfl
    rw [Json.compactMoreItems, read_cons, separated, more,
      read_compact v word (by trivial) delimits, ← more]
    refine (read_moreItems vs words (v.toDoc :: done)).trans ?_
    rw [List.reverse_cons, List.append_assoc]
    rfl

theorem read_members : (ms : List (String × Json)) → Json.membersInWords ms = true →
    {outer : List Frame} →
    (reading (.members [] .keyOrEnd :: outer) .gap).read ((Json.compactMembers ms).map some) =
      deliver outer (.obj (Json.toDocMembers ms) true)
  | [], _, _ => rfl
  | (key, v) :: ms, words, outer => by
    obtain ⟨word, words⟩ := Bool.and_eq_true_iff.1 words
    obtain ⟨c, rest, more, delimits⟩ := compactMoreMembers_cons ms
    have colon : (reading (.members [] (.colon (some key)) :: outer) .gap).step (some ':') =
        .reading (.members [] (.value (some key)) :: outer) .gap := rfl
    rw [Json.compactMembers, read_append_chars, read_key (.inl rfl), read_cons, colon, more,
      read_compact v word (by trivial) delimits, ← more]
    exact read_moreMembers ms words [(some key, v.toDoc)]

theorem read_moreMembers : (ms : List (String × Json)) → Json.membersInWords ms = true →
    (done : List (Option String × Doc)) → {outer : List Frame} →
    (reading (.members done .separator :: outer) .gap).read ((Json.compactMoreMembers ms).map some) =
      deliver outer (.obj (done.reverse ++ Json.toDocMembers ms) true)
  | [], _, done, outer => by
    rw [Json.toDocMembers, List.append_nil]
    rfl
  | (key, v) :: ms, words, done, outer => by
    obtain ⟨word, words⟩ := Bool.and_eq_true_iff.1 words
    obtain ⟨c, rest, more, delimits⟩ := compactMoreMembers_cons ms
    have separated : (reading (.members done .separator :: outer) .gap).step (some ',') =
        .reading (.members done .key :: outer) .gap := rfl
    have colon : (reading (.members done (.colon (some key)) :: outer) .gap).step (some ':') =
        .reading (.members done (.value (some key)) :: outer) .gap := rfl
    rw [Json.compactMoreMembers, read_cons, separated, read_append_chars, read_key (.inr rfl), read_cons,
      colon, more, read_compact v word (by trivial) delimits, ← more]
    refine (read_moreMembers ms words ((some key, v.toDoc) :: done)).trans ?_
    rw [List.reverse_cons, List.append_assoc]
    rfl
end

end Reader

/-- The reader has seen the whole of an object when it has read the object's text. -/
theorem Reader.read_object {members : List (String × Json)} (words : Json.membersInWords members = true) :
    Reader.start.read ((Json.obj members).compactChars.map some) =
      .complete (Json.obj members).toDoc false := by
  have begun : Reader.start.step (some '\x7b') = .reading [.members [] .keyOrEnd] .gap := rfl
  rw [Json.compactChars, Reader.read_cons, begun, Reader.read_members members words]
  rfl

/-- The text of an object reads as that object, and nothing follows it. -/
theorem Doc.ofText_compact {members : List (String × Json)} (words : Json.membersInWords members = true) :
    Doc.ofText (Json.obj members).compact = ((Json.obj members).toDoc, false) := by
  rw [Doc.ofText, Json.compact, String.toList_ofList, Reader.read_object words]
  rfl

/-! ## One line -/

namespace Json

theorem newline_not_mem_hexDigits (width n : Nat) : '\n' ∉ Text.hexDigits width n := by
  have digit : ∀ d < 16, '\n' ≠ Text.hexDigit d := by decide
  induction width generalizing n with
  | zero => exact List.not_mem_nil
  | succ width ih =>
    rw [Text.hexDigits, List.mem_append, List.mem_singleton, not_or]
    exact ⟨ih _, digit _ (Nat.mod_lt n (by decide))⟩

theorem newline_not_mem_escape (c : Char) : '\n' ∉ escape c := by
  unfold escape
  split
  case h_8 _ _ newline _ _ _ _ =>
    split
    · simpa using newline_not_mem_hexDigits 4 c.toNat
    · exact fun member => newline (List.mem_singleton.1 member).symm
  all_goals decide

theorem newline_not_mem_quote (text : String) : '\n' ∉ quote text := by
  simp [quote, newline_not_mem_escape]

theorem newline_not_mem_natChars (n : Nat) : '\n' ∉ natChars n := fun member =>
  absurd (NumberScan.natChars_digit member) (by decide)

theorem newline_not_mem_numberChars {number : Number} (word : number.isWord = true) :
    '\n' ∉ numberChars number := by
  cases number with
  | real x =>
    obtain rfl : x = (Binary64.ofNat 0).neg := beq_iff_eq.1 word
    decide +kernel
  | int value =>
    cases value with
    | ofNat n => exact newline_not_mem_natChars n
    | negSucc n =>
      rw [numberChars, intChars, List.mem_cons, not_or]
      exact ⟨by decide, newline_not_mem_natChars (n + 1)⟩

mutual
theorem newline_not_mem_compact : (v : Json) → v.inWords = true → '\n' ∉ v.compactChars
  | .null, _ => by decide
  | .bool true, _ => by decide
  | .bool false, _ => by decide
  | .num _, words => newline_not_mem_numberChars words
  | .str text, _ => newline_not_mem_quote text
  | .arr items, words => by
    rw [compactChars, List.mem_cons, not_or]
    exact ⟨by decide, newline_not_mem_items items words⟩
  | .obj members, words => by
    rw [compactChars, List.mem_cons, not_or]
    exact ⟨by decide, newline_not_mem_members members words⟩

theorem newline_not_mem_items : (vs : List Json) → allInWords vs = true → '\n' ∉ compactItems vs
  | [], _ => by decide
  | v :: vs, words => by
    obtain ⟨word, words⟩ := Bool.and_eq_true_iff.1 words
    rw [compactItems, List.mem_append, not_or]
    exact ⟨newline_not_mem_compact v word, newline_not_mem_moreItems vs words⟩

theorem newline_not_mem_moreItems : (vs : List Json) → allInWords vs = true →
    '\n' ∉ compactMoreItems vs
  | [], _ => by decide
  | v :: vs, words => by
    obtain ⟨word, words⟩ := Bool.and_eq_true_iff.1 words
    rw [compactMoreItems, List.mem_cons, List.mem_append, not_or, not_or]
    exact ⟨by decide, newline_not_mem_compact v word, newline_not_mem_moreItems vs words⟩

theorem newline_not_mem_members : (ms : List (String × Json)) → membersInWords ms = true →
    '\n' ∉ compactMembers ms
  | [], _ => by decide
  | (key, v) :: ms, words => by
    obtain ⟨word, words⟩ := Bool.and_eq_true_iff.1 words
    rw [compactMembers, List.mem_append, List.mem_cons, List.mem_append, not_or, not_or, not_or]
    exact ⟨newline_not_mem_quote key, by decide, newline_not_mem_compact v word,
      newline_not_mem_moreMembers ms words⟩

theorem newline_not_mem_moreMembers : (ms : List (String × Json)) → membersInWords ms = true →
    '\n' ∉ compactMoreMembers ms
  | [], _ => by decide
  | (key, v) :: ms, words => by
    obtain ⟨word, words⟩ := Bool.and_eq_true_iff.1 words
    rw [compactMoreMembers, List.mem_cons, List.mem_append, List.mem_cons, List.mem_append, not_or,
      not_or, not_or, not_or]
    exact ⟨by decide, newline_not_mem_quote key, by decide, newline_not_mem_compact v word,
      newline_not_mem_moreMembers ms words⟩
end

end Json

end BlockGraph
