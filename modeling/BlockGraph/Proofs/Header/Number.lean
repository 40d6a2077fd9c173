import BlockGraph.Proofs.Json.Difference
import BlockGraph.Proofs.Text.Numeral
import BlockGraph.Proofs.Wire.Header

/-!
# Heights of headers

A height is read from an integer or from a text that spells it, and which of them an endpoint chose is
not seen in the header that is read.

* `readNumber_eq_ok_iff`, `readNumber_eq_error_iff` — the texts of a height, and what is wrong with others.
* `readNumber_writes` — the digits of a height in either radix.
* `Awaits`, `ofText_number` — the place of the height in a text, and what may stand there.
* `heights_read` — heights are read exactly, from each of their forms.
-/

namespace BlockGraph.Header

open Text

variable {s : String} {n : UInt64} {front back : List Char}

/-! ## Heights as texts -/

/-- The radix of a height with a marker or without one. -/
def radix (marked : Bool) : Nat := if marked then 16 else 10

theorem readNumber_eq_iff {outcome : Except NumeralError UInt64} :
    readNumber s = outcome ↔ ∃ marked body value, Presented marked body s.toList ∧
      Numeral (radix marked) maxWord body value ∧ outcome = UInt64.ofNat <$> value := by
  cases split : splitMarker (trimChars s.toList) with
  | mk marked body =>
    have read : readNumber s = UInt64.ofNat <$> readNumeral (radix marked) maxWord body := by
      rw [readNumber, split, radix]
    rw [read]
    constructor
    · rintro rfl
      exact ⟨marked, body, _, splitMarker_trimChars_eq_iff.1 split, numeral_readNumeral .., rfl⟩
    · rintro ⟨other, rest, value, presented, numeral, rfl⟩
      have same := (splitMarker_trimChars_eq_iff.2 presented).symm.trans split
      obtain ⟨rfl, rfl⟩ := Prod.mk.inj same
      rw [readNumeral_eq_iff.2 numeral]

theorem readNumber_eq_ok_iff : readNumber s = .ok n ↔
    ∃ marked body digits, Presented marked body s.toList ∧ Unsigned body digits ∧ digits ≠ [] ∧
      Writes (radix marked) digits n.toNat := by
  rw [readNumber_eq_iff]
  constructor
  · rintro ⟨marked, body, value, presented, numeral, same⟩
    cases value with
    | error => cases same
    | ok m =>
      obtain ⟨digits, unsigned, some, writes, within⟩ := numeral_ok_iff.1 numeral
      obtain rfl := Except.ok.inj same
      refine ⟨marked, body, digits, presented, unsigned, some, ?_⟩
      rwa [UInt64.toNat_ofNat_of_lt' (Nat.lt_succ_of_le within)]
  · rintro ⟨marked, body, digits, presented, unsigned, some, writes⟩
    have within : n.toNat ≤ maxWord := Nat.le_of_lt_succ n.toNat_lt
    refine ⟨marked, body, .ok n.toNat, presented,
      numeral_ok_iff.2 ⟨digits, unsigned, some, writes, within⟩, ?_⟩
    exact congrArg Except.ok (UInt64.ofNat_toNat ..).symm

theorem readNumber_eq_error_iff {e : NumeralError} : readNumber s = .error e ↔
    ∃ marked body, Presented marked body s.toList ∧ Numeral (radix marked) maxWord body (.error e) := by
  rw [readNumber_eq_iff]
  constructor
  · rintro ⟨marked, body, value, presented, numeral, same⟩
    cases value with
    | ok => cases same
    | error e' =>
      obtain rfl := Except.error.inj same
      exact ⟨marked, body, presented, numeral⟩
  · rintro ⟨marked, body, presented, numeral⟩
    exact ⟨marked, body, _, presented, numeral, rfl⟩

/-- The digits of a height, with a marker if they are hexadecimal. -/
theorem readNumber_writes {marked : Bool} {marker digits : List Char}
    (writes : Writes (radix marked) digits n.toNat) (some : digits ≠ []) (is : Marker marked marker) :
    readNumber (String.ofList (marker ++ digits)) = .ok n := by
  refine readNumber_eq_ok_iff.2 ⟨marked, digits, digits, ?_, writes.unsigned, some, writes⟩
  rw [String.toList_ofList]
  exact presented_digits is some fun c member => (writes.digit member).imp fun _ digit => digit.1

/-- A height is read from its decimal digits. -/
theorem readNumber_decimal (n : UInt64) : readNumber (String.ofList (Json.natChars n.toNat)) = .ok n := by
  have writes : Writes (radix false) (Json.natChars n.toNat) n.toNat :=
    writes_toDigits (by decide) (by decide) n.toNat
  have read := readNumber_writes writes Nat.toDigits_ne_nil .none
  rwa [List.nil_append] at read

/-- A height is read from its hexadecimal digits. -/
theorem readNumber_hexadecimal {marker : List Char} (n : UInt64) (is : Marker true marker) :
    readNumber (String.ofList (marker ++ Nat.toDigits 16 n.toNat)) = .ok n := by
  have writes : Writes (radix true) (Nat.toDigits 16 n.toNat) n.toNat :=
    writes_toDigits (by decide) (by decide) n.toNat
  exact readNumber_writes writes Nat.toDigits_ne_nil is

/-! ## Heights in a header -/

/-- Readers that come to the height of a header: as its member, or as the first item of an array. -/
inductive Awaits : Reader → Prop
  | member (done : List (Option String × Doc)) :
      Awaits (.reading [.members done (.value (some "number"))] .gap)
  | item : Awaits (.reading [.items [] .itemOrEnd] .gap)

/-- Documents that are read as the same height give the same header. -/
theorem read_congr {d e a b : Doc} (same : ∀ r, numberCodec.read r d = numberCodec.read r e)
    (differ : Doc.Differ (some "number") d e a b) (r : Reading) : codec.read r a = codec.read r b :=
  Fields.read_congr same differ

theorem Awaits.place {r : Reader} (awaits : Awaits r) :
    ∃ stack, r = .reading stack .gap ∧ Reader.Ready stack ∧
      ∀ d e, Reader.Differ (some "number") d e (Reader.deliver stack d) (Reader.deliver stack e) := by
  cases awaits with
  | member done =>
    exact ⟨_, rfl, trivial, fun d e => .reading (.outermost (.members [] done .separator)) .gap⟩
  | item => exact ⟨_, rfl, trivial, fun d e => .reading (.outermost (.items [] .separator)) .gap⟩

/-- Texts whose documents differ in their height alone. -/
theorem ofText_congr {text other : String} {d e : Doc}
    (same : ∀ r, numberCodec.read r d = numberCodec.read r e)
    (differ : Doc.Differ (some "number") d e (Doc.ofText text).1 (Doc.ofText other).1)
    (behind : (Doc.ofText text).2 = (Doc.ofText other).2) : ofText text = ofText other := by
  have decoded : codec.decode text = codec.decode other := by
    simp only [Codec.decode, Codec.decodeDoc, read_congr same differ, behind]
  rw [ofText_eq, ofText_eq, decoded]

/-- A text in which the height stands as an integer is read like one in which it stands as a text. -/
theorem ofText_number (awaits : Awaits (Reader.start.read (front.map some)))
    (ends : ∀ c ∈ back.head?, ¬ NumberScan.Continues c) (read : readNumber s = .ok n) :
    ofText (String.ofList (front ++ (Json.natChars n.toNat ++ back))) =
      ofText (String.ofList (front ++ (Json.quote s ++ back))) := by
  have within : n.toNat ≤ maxWord := Nat.le_of_lt_succ n.toNat_lt
  obtain ⟨stack, reached, ready, place⟩ := awaits.place
  have number : Doc.ofText (String.ofList (front ++ (Json.natChars n.toNat ++ back))) =
      ((Reader.deliver stack (Json.nat n.toNat).toDoc).read (back.map some)).finish := by
    rw [Doc.ofText, String.toList_ofList, Reader.read_append_chars, reached]
    exact Reader.finish_spelled (NumberScan.natChars_spells within) ready ends
  have string : Doc.ofText (String.ofList (front ++ (Json.quote s ++ back))) =
      ((Reader.deliver stack (Json.str s).toDoc).read (back.map some)).finish := by
    rw [Doc.ofText, String.toList_ofList, Reader.read_append_chars, reached,
      Reader.read_on (Reader.read_quote ready s)]
    rfl
  have same (r : Reading) :
      numberCodec.read r (Json.nat n.toNat).toDoc = numberCodec.read r (Json.str s).toDoc := by
    have plain : numberCodec.read r (Json.nat n.toNat).toDoc = .ok n := number_returns r n
    have quoted : numberCodec.read r (Json.str s).toDoc = (readNumber s).mapError .numeral := rfl
    rw [plain, quoted, read]
    rfl
  obtain ⟨differ, behind⟩ := ((place (Json.nat n.toNat).toDoc (Json.str s).toDoc).read back).finish
  rw [← number, ← string] at differ behind
  exact ofText_congr same differ behind

/-- Heights are read exactly, and the form in which a header gives its height does not matter. -/
theorem heights_read :
    (∀ s n, readNumber s = .ok n ↔ ∃ marked body digits, Presented marked body s.toList ∧
      Unsigned body digits ∧ digits ≠ [] ∧ Writes (radix marked) digits n.toNat) ∧
    (∀ s e, readNumber s = .error e ↔ ∃ marked body, Presented marked body s.toList ∧
      Numeral (radix marked) maxWord body (.error e)) ∧
    (∀ n front back, Awaits (Reader.start.read (front.map some)) →
      (∀ c ∈ back.head?, ¬ NumberScan.Continues c) → ∀ s, readNumber s = .ok n →
        ofText (String.ofList (front ++ (Json.natChars n.toNat ++ back))) =
          ofText (String.ofList (front ++ (Json.quote s ++ back)))) ∧
    (∀ n, readNumber (String.ofList (Json.natChars n.toNat)) = .ok n) ∧
    ∀ n marker, Marker true marker →
      readNumber (String.ofList (marker ++ Nat.toDigits 16 n.toNat)) = .ok n := by
  refine ⟨fun s n => readNumber_eq_ok_iff, fun s e => readNumber_eq_error_iff, ?_, ?_, ?_⟩
  · exact fun n front back awaits ends s read => ofText_number awaits ends read
  · exact readNumber_decimal
  · exact fun n marker is => readNumber_hexadecimal n is

/-- A height in decimal digits, and in hexadecimal ones between blanks. -/
theorem heights_read_padded :
    ofText "\x7b\"hash\":\"0xa\",\"number\": 255 ,\"parentHash\":\"0x0\"\x7d" =
      ofText "\x7b\"hash\":\"0xa\",\"number\": \" 0X+0fF\u3000\" ,\"parentHash\":\"0x0\"\x7d" := by
  have read : readNumber " 0X+0fF\u3000" = .ok 255 := by decide +kernel
  have reached : Reader.start.read ("\x7b\"hash\":\"0xa\",\"number\": ".toList.map some) =
      .reading [.members [(some "hash", .str "0xa")] (.value (some "number"))] .gap := rfl
  have awaits : Awaits (Reader.start.read ("\x7b\"hash\":\"0xa\",\"number\": ".toList.map some)) := by
    rw [reached]
    exact .member _
  have ends : ∀ c ∈ " ,\"parentHash\":\"0x0\"\x7d".toList.head?, ¬ NumberScan.Continues c := by
    rintro c ⟨⟩
    unfold NumberScan.Continues
    decide
  have same := heights_read.2.2.1 255 _ _ awaits ends _ read
  have plain : String.ofList ("\x7b\"hash\":\"0xa\",\"number\": ".toList ++
      (Json.natChars (255 : UInt64).toNat ++ " ,\"parentHash\":\"0x0\"\x7d".toList)) =
      "\x7b\"hash\":\"0xa\",\"number\": 255 ,\"parentHash\":\"0x0\"\x7d" := by decide +kernel
  have quoted : String.ofList ("\x7b\"hash\":\"0xa\",\"number\": ".toList ++
      (Json.quote " 0X+0fF\u3000" ++ " ,\"parentHash\":\"0x0\"\x7d".toList)) =
      "\x7b\"hash\":\"0xa\",\"number\": \" 0X+0fF\u3000\" ,\"parentHash\":\"0x0\"\x7d" := by decide +kernel
  exact (congrArg ofText plain).symm.trans (same.trans (congrArg ofText quoted))

end BlockGraph.Header
