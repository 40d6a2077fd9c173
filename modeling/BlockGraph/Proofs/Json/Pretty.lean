import BlockGraph.Proofs.Json.Text

/-!
# Reading indented text

The indented text of a value reads as the value, just as its text on one line does: between two tokens
there are blanks only, and the reader passes these by.

* `read_newline` — the reader after an indentation is the reader before it.
* `read_pretty` — what a value leaves behind, where more of the text follows.
* `ofText_ended` — a text that ends with a line feed reads as it does without.
-/

namespace BlockGraph

namespace Reader

open NumberScan

variable {stack outer : List Frame} {c : Char}

theorem read_newline (stack : List Frame) (level : Nat) :
    (reading stack .gap).read ((Json.newline level).map some) = .reading stack .gap := by
  have blanks (n : Nat) :
      (reading stack .gap).read ((List.replicate n ' ').map some) = .reading stack .gap := by
    induction n with
    | zero => rfl
    | succ n ih => exact ih
  exact blanks (2 * level)

/-- An indentation in front of what follows. -/
theorem read_indented (stack : List Frame) (level : Nat) (rest : List Char) :
    (reading stack .gap).read ((Json.newline level ++ rest).map some) =
      (reading stack .gap).read (rest.map some) := by
  rw [read_append_chars, read_newline]

theorem prettyMoreItems_cons (level : Nat) (vs : List Json) :
    ∃ c rest, Json.prettyMoreItems level vs = c :: rest ∧ Delimits c := by
  cases vs with
  | nil => exact ⟨'\n', _, rfl, .inr (.inr (.inr rfl))⟩
  | cons v vs => exact ⟨',', _, rfl, .inl rfl⟩

theorem prettyMoreMembers_cons (level : Nat) (ms : List (String × Json)) :
    ∃ c rest, Json.prettyMoreMembers level ms = c :: rest ∧ Delimits c := by
  cases ms with
  | nil => exact ⟨'\n', _, rfl, .inr (.inr (.inr rfl))⟩
  | cons m ms => exact ⟨',', _, rfl, .inl rfl⟩

/-- A key with its colon and the blank behind it. -/
theorem read_prettyKey {done : List (Option String × Doc)} {wait : MembersWait}
    (waits : wait = .keyOrEnd ∨ wait = .key) (key : String) (rest : List Char) :
    (reading (.members done wait :: outer) .gap).read ((Json.quote key ++ ':' :: ' ' :: rest).map some) =
      (reading (.members done (.value (some key)) :: outer) .gap).read (rest.map some) := by
  rw [read_append_chars, read_key waits]
  rfl

mutual
/-- What a value leaves behind, where a delimiter follows. -/
theorem read_pretty (level : Nat) : (v : Json) → v.inWords = true → {stack : List Frame} → Ready stack →
    {c : Char} → Delimits c → (rest : List Char) →
    (reading stack .gap).read ((v.prettyChars level ++ c :: rest).map some) =
      (deliver stack v.toDoc).read ((c :: rest).map some)
  | .null, words, _, ready, _, delimits, rest => read_compact .null words ready delimits rest
  | .bool true, words, _, ready, _, delimits, rest => read_compact (.bool true) words ready delimits rest
  | .bool false, words, _, ready, _, delimits, rest => read_compact (.bool false) words ready delimits rest
  | .num n, words, _, ready, _, delimits, rest => read_compact (.num n) words ready delimits rest
  | .str text, words, _, ready, _, delimits, rest => read_compact (.str text) words ready delimits rest
  | .arr [], words, _, ready, _, delimits, rest => read_compact (.arr []) words ready delimits rest
  | .obj [], words, _, ready, _, delimits, rest => read_compact (.obj []) words ready delimits rest
  | .arr (v :: vs), words, stack, ready, _, _, _ => by
    obtain ⟨word, words⟩ := Bool.and_eq_true_iff.1 words
    obtain ⟨c, rest, more, delimits⟩ := prettyMoreItems_cons level vs
    have begun : (reading stack .gap).step (some '[') = .reading (.items [] .itemOrEnd :: stack) .gap :=
      stepGap_ready ready (by decide) (by decide)
    refine read_on ?_ _
    rw [Json.prettyChars, read_cons, begun, List.append_assoc, read_indented, more,
      read_pretty (level + 1) v word (by trivial) delimits, ← more]
    exact read_prettyMoreItems level vs words [v.toDoc]
  | .obj ((key, v) :: ms), words, stack, ready, _, _, _ => by
    obtain ⟨word, words⟩ := Bool.and_eq_true_iff.1 words
    obtain ⟨c, rest, more, delimits⟩ := prettyMoreMembers_cons level ms
    have begun : (reading stack .gap).step (some '\x7b') =
        .reading (.members [] .keyOrEnd :: stack) .gap := stepGap_ready ready (by decide) (by decide)
    refine read_on ?_ _
    rw [Json.prettyChars, read_cons, begun, List.append_assoc, read_indented, read_prettyKey (.inl rfl), more,
      read_pretty (level + 1) v word (by trivial) delimits, ← more]
    exact read_prettyMoreMembers level ms words [(some key, v.toDoc)]

theorem read_prettyMoreItems (level : Nat) : (vs : List Json) → Json.allInWords vs = true →
    (done : List Doc) → {outer : List Frame} →
    (reading (.items done .separator :: outer) .gap).read ((Json.prettyMoreItems level vs).map some) =
      deliver outer (.arr (done.reverse ++ Json.toDocs vs) true)
  | [], _, done, outer => by
    rw [Json.toDocs, List.append_nil, Json.prettyMoreItems, read_indented]
    rfl
  | v :: vs, words, done, outer => by
    obtain ⟨word, words⟩ := Bool.and_eq_true_iff.1 words
    obtain ⟨c, rest, more, delimits⟩ := prettyMoreItems_cons level vs
    have separated : (reading (.items done .separator :: outer) .gap).step (some ',') =
        .reading (.items done .item :: outer) .gap := rfl
    rw [Json.prettyMoreItems, read_cons, separated, List.append_assoc, read_indented, more,
      read_pretty (level + 1) v word (by trivial) delimits, ← more]
    refine (read_prettyMoreItems level vs words (v.toDoc :: done)).trans ?_
    rw [List.reverse_cons, List.append_assoc]
    rfl

theorem read_prettyMoreMembers (level : Nat) : (ms : List (String × Json)) →
    Json.membersInWords ms = true → (done : List (Option String × Doc)) → {outer : List Frame} →
    (reading (.members done .separator :: outer) .gap).read ((Json.prettyMoreMembers level ms).map some) =
      deliver outer (.obj (done.reverse ++ Json.toDocMembers ms) true)
  | [], _, done, outer => by
    rw [Json.toDocMembers, List.append_nil, Json.prettyMoreMembers, read_indented]
    rfl
  | (key, v) :: ms, words, done, outer => by
    obtain ⟨word, words⟩ := Bool.and_eq_true_iff.1 words
    obtain ⟨c, rest, more, delimits⟩ := prettyMoreMembers_cons level ms
    have separated : (reading (.members done .separator :: outer) .gap).step (some ',') =
        .reading (.members done .key :: outer) .gap := rfl
    rw [Json.prettyMoreMembers, read_cons, separated, List.append_assoc, read_indented,
      read_prettyKey (.inr rfl), more, read_pretty (level + 1) v word (by trivial) delimits, ← more]
    refine (read_prettyMoreMembers level ms words ((some key, v.toDoc) :: done)).trans ?_
    rw [List.reverse_cons, List.append_assoc]
    rfl
end

/-- The reader has seen the whole of an object when it has read the object's indented text. -/
theorem read_prettyObject {members : List (String × Json)} (words : Json.membersInWords members = true) :
    Reader.start.read (((Json.obj members).prettyChars 0).map some) =
      .complete (Json.obj members).toDoc false := by
  cases members with
  | nil => rfl
  | cons member ms =>
    obtain ⟨key, v⟩ := member
    obtain ⟨word, words⟩ := Bool.and_eq_true_iff.1 words
    obtain ⟨c, rest, more, delimits⟩ := prettyMoreMembers_cons 0 ms
    have begun : Reader.start.step (some '\x7b') = .reading [.members [] .keyOrEnd] .gap := rfl
    rw [Json.prettyChars, read_cons, begun, List.append_assoc, read_indented, read_prettyKey (.inl rfl), more,
      read_pretty 1 v word (by trivial) delimits, ← more]
    exact read_prettyMoreMembers 0 ms words [(some key, v.toDoc)]

end Reader

/-- A text that is a whole document is the same one where a line feed ends it. -/
theorem Doc.ofText_ended {text : String} {doc : Doc}
    (whole : Reader.start.read (text.toList.map some) = .complete doc false) :
    Doc.ofText text = (doc, false) ∧ Doc.ofText (text ++ "\n") = (doc, false) := by
  have ended : (text ++ "\n").toList = text.toList ++ ['\n'] := String.toList_append
  rw [Doc.ofText, Doc.ofText, ended, Reader.read_append_chars, whole]
  exact ⟨rfl, rfl⟩

end BlockGraph
