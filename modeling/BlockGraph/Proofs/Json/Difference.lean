import BlockGraph.Json.Record
import BlockGraph.Proofs.Json.Text
import Mathlib.Tactic.SplitIfs

/-!
# Texts that differ in one part

Two readers whose outermost containers differ in one part go on alike, whatever follows in the text: the
part is handed over already, and no later character looks at it. So the documents of two texts that differ
in that part alone differ in that part alone, and a record is the same if the part is read alike.

* `Doc.Differ`, `Frame.AllDiffer`, `Reader.Differ` — differences in the first item or in one member.
* `Frame.AllDiffer.stepGap`, `Reader.Differ.step`, `Reader.Differ.read` — what one character and a text
  keep of a difference.
* `Reader.Differ.finish` — the documents.
* `Fields.read_congr` — records.
-/

namespace BlockGraph

section
variable (key : Option String) (d e : Doc)

/-- Outermost containers that differ in one part: in their first item, or in a member under the key. -/
inductive Frame.Differ : Frame → Frame → Prop
  | items (more : List Doc) (wait : ItemsWait) :
      Differ (.items (more ++ [d]) wait) (.items (more ++ [e]) wait)
  | members (more done : List (Option String × Doc)) (wait : MembersWait) :
      Differ (.members (more ++ (key, d) :: done) wait) (.members (more ++ (key, e) :: done) wait)

/-- Documents that differ in their first item, or in a member under the key. -/
inductive Doc.Differ : Doc → Doc → Prop
  | arr (items : List Doc) (closed : Bool) : Differ (.arr (d :: items) closed) (.arr (e :: items) closed)
  | obj (front back : List (Option String × Doc)) (closed : Bool) :
      Differ (.obj (front ++ (key, d) :: back) closed) (.obj (front ++ (key, e) :: back) closed)

/-- Stacks that differ in the outermost container. -/
inductive Frame.AllDiffer : List Frame → List Frame → Prop
  | outermost {f g : Frame} (differ : Frame.Differ key d e f g) : AllDiffer [f] [g]
  | inner (frame : Frame) {s t : List Frame} (differ : AllDiffer s t) :
      AllDiffer (frame :: s) (frame :: t)

inductive Reader.Differ : Reader → Reader → Prop
  | reading {s t : List Frame} (differ : Frame.AllDiffer key d e s t) (lexeme : Lexeme) :
      Differ (.reading s lexeme) (.reading t lexeme)
  | complete {a b : Doc} (differ : Doc.Differ key d e a b) (trailing : Bool) :
      Differ (.complete a trailing) (.complete b trailing)
  | halted {a b : Doc} (differ : Doc.Differ key d e a b) : Differ (.halted a) (.halted b)

end

variable {key : Option String} {d e : Doc} {f g : Frame} {s t : List Frame} {c : Char} {doc : Doc}

theorem Doc.Differ.arr_reverse (more : List Doc) (closed : Bool) :
    Doc.Differ key d e (.arr (more ++ [d]).reverse closed) (.arr (more ++ [e]).reverse closed) := by
  simpa using Doc.Differ.arr more.reverse closed

theorem Doc.Differ.obj_reverse (more done : List (Option String × Doc)) (closed : Bool) :
    Doc.Differ key d e (.obj (more ++ (key, d) :: done).reverse closed)
      (.obj (more ++ (key, e) :: done).reverse closed) := by
  simpa using Doc.Differ.obj done.reverse more.reverse closed

theorem Frame.Differ.cut (differ : Frame.Differ key d e f g) : Doc.Differ key d e f.cut g.cut := by
  cases differ with
  | items more wait => exact .arr_reverse more false
  | members more done wait =>
    cases wait with
    | colon k | value k => exact .obj_reverse ((k, .broken) :: more) done false
    | keyOrEnd | key | separator => exact .obj_reverse more done false

theorem Frame.Differ.cutWith (differ : Frame.Differ key d e f g) (inner : Doc) :
    Doc.Differ key d e (f.cutWith inner) (g.cutWith inner) := by
  cases differ with
  | items more wait => exact .arr_reverse (inner :: more) false
  | members more done wait =>
    cases wait with
    | colon k | value k => exact .obj_reverse ((k, inner) :: more) done false
    | keyOrEnd | key | separator => exact .obj_reverse more done false

namespace Reader

/-- What a character does to an array between two tokens. -/
theorem stepGap_items {done : List Doc} {wait : ItemsWait} {outer : List Frame} (solid : isGap c = false) :
    stepGap (.items done wait :: outer) c =
      if wait ≠ .item ∧ c = ']' then deliver outer (.arr done.reverse true)
      else if wait ≠ .separator then beginValue (.items done wait :: outer) c
      else if c = ',' then .reading (.items done .item :: outer) .gap
      else halt (.items done wait :: outer) := by
  by_cases close : c = ']'
  · subst close
    cases wait <;> rfl
  · by_cases comma : c = ','
    · subst comma
      cases wait <;> rfl
    · cases wait <;> simp [stepGap, solid, close, comma]

/-- What a character does to an object between two tokens. -/
theorem stepGap_members {done : List (Option String × Doc)} {wait : MembersWait} {outer : List Frame}
    (solid : isGap c = false) :
    stepGap (.members done wait :: outer) c =
      let stack := .members done wait :: outer
      let string := if c = '"' then .reading stack (.string .start) else halt stack
      let ended (other : Reader) := if c = '\x7d' then deliver outer (.obj done.reverse true) else other
      match wait with
      | .keyOrEnd => ended string
      | .key => string
      | .colon key => if c = ':' then .reading (.members done (.value key) :: outer) .gap else halt stack
      | .value _ => beginValue stack c
      | .separator => ended (if c = ',' then .reading (.members done .key :: outer) .gap else halt stack) := by
  cases wait with
  | keyOrEnd =>
    by_cases close : c = '\x7d'
    · subst close
      rfl
    · simp [stepGap, solid, close]
  | key | value => simp [stepGap, solid]
  | colon =>
    by_cases colon : c = ':'
    · subst colon
      rfl
    · simp [stepGap, solid, colon]
  | separator =>
    by_cases close : c = '\x7d'
    · subst close
      rfl
    · by_cases comma : c = ','
      · subst comma
        rfl
      · simp [stepGap, solid, close, comma]

end Reader

namespace Frame.AllDiffer

theorem enclose (differ : AllDiffer key d e s t) (inner : Doc) :
    Doc.Differ key d e (Reader.enclose inner s) (Reader.enclose inner t) := by
  induction differ generalizing inner with
  | outermost differ => exact differ.cutWith inner
  | inner frame _ ih => exact ih (frame.cutWith inner)

theorem cutAt (differ : AllDiffer key d e s t) : Doc.Differ key d e (Reader.cutAt s) (Reader.cutAt t) := by
  cases differ with
  | outermost differ => exact differ.cut
  | inner frame differ => exact differ.enclose frame.cut

theorem halt (differ : AllDiffer key d e s t) : Reader.Differ key d e (Reader.halt s) (Reader.halt t) :=
  .halted differ.cutAt

theorem deliver (differ : AllDiffer key d e s t) (doc : Doc) :
    Reader.Differ key d e (Reader.deliver s doc) (Reader.deliver t doc) := by
  have stuck := differ.halt
  cases differ with
  | outermost differ =>
    cases differ with
    | items more wait =>
      cases wait with
      | separator => exact stuck
      | itemOrEnd | item => exact .reading (.outermost (.items (doc :: more) .separator)) .gap
    | members more done wait =>
      cases wait with
      | value k => exact .reading (.outermost (.members ((k, doc) :: more) done .separator)) .gap
      | keyOrEnd | key | colon | separator => exact stuck
  | inner frame differ =>
    cases frame with
    | items done wait =>
      cases wait with
      | separator => exact stuck
      | itemOrEnd | item => exact .reading (.inner (.items (doc :: done) .separator) differ) .gap
    | members done wait =>
      cases wait with
      | value k => exact .reading (.inner (.members ((k, doc) :: done) .separator) differ) .gap
      | keyOrEnd | key | colon | separator => exact stuck

theorem deliverString (differ : AllDiffer key d e s t) (text : Option String) :
    Reader.Differ key d e (Reader.deliverString s text) (Reader.deliverString t text) := by
  have plain := differ.deliver (.str text)
  cases differ with
  | outermost differ =>
    cases differ with
    | items more wait => exact plain
    | members more done wait =>
      cases wait with
      | keyOrEnd | key => exact .reading (.outermost (.members more done (.colon text))) .gap
      | colon | value | separator => exact plain
  | inner frame differ =>
    cases frame with
    | items done wait => exact plain
    | members done wait =>
      cases wait with
      | keyOrEnd | key => exact .reading (.inner (.members done (.colon text)) differ) .gap
      | colon | value | separator => exact plain

theorem beginValue (differ : AllDiffer key d e s t) (c : Char) :
    Reader.Differ key d e (Reader.beginValue s c) (Reader.beginValue t c) := by
  unfold Reader.beginValue
  split
  case h_1 => exact .reading (.inner (.items [] .itemOrEnd) differ) .gap
  case h_2 => exact .reading (.inner (.members [] .keyOrEnd) differ) .gap
  case h_7 =>
    split
    · exact .reading differ _
    · exact differ.halt
  all_goals exact .reading differ _

/-- An array is stepped alike whatever it waits for, if it is closed alike. -/
theorem stepGap_items {ds es : List Doc} {wait : ItemsWait} (gap : Reader.isGap c = false)
    (waits : ∀ wait, AllDiffer key d e (.items ds wait :: s) (.items es wait :: t))
    (closes : Reader.Differ key d e (Reader.deliver s (.arr ds.reverse true))
      (Reader.deliver t (.arr es.reverse true))) :
    Reader.Differ key d e (Reader.stepGap (.items ds wait :: s) c) (Reader.stepGap (.items es wait :: t) c) := by
  rw [Reader.stepGap_items gap, Reader.stepGap_items gap]
  split_ifs
  · exact closes
  · exact (waits wait).beginValue c
  · exact .reading (waits .item) .gap
  · exact (waits wait).halt

theorem stepGap_members {ds es : List (Option String × Doc)} {wait : MembersWait}
    (gap : Reader.isGap c = false)
    (waits : ∀ wait, AllDiffer key d e (.members ds wait :: s) (.members es wait :: t))
    (closes : Reader.Differ key d e (Reader.deliver s (.obj ds.reverse true))
      (Reader.deliver t (.obj es.reverse true))) :
    Reader.Differ key d e (Reader.stepGap (.members ds wait :: s) c)
      (Reader.stepGap (.members es wait :: t) c) := by
  have string := Reader.Differ.reading (waits wait) (.string .start)
  have stuck := (waits wait).halt
  rw [Reader.stepGap_members gap, Reader.stepGap_members gap]
  cases wait with
  | keyOrEnd =>
    dsimp only
    split_ifs
    · exact closes
    · exact string
    · exact stuck
  | key =>
    dsimp only
    split_ifs
    · exact string
    · exact stuck
  | colon key =>
    dsimp only
    split_ifs
    · exact .reading (waits (.value key)) .gap
    · exact stuck
  | value => exact (waits _).beginValue c
  | separator =>
    dsimp only
    split_ifs
    · exact closes
    · exact .reading (waits .key) .gap
    · exact stuck

/-- Between two tokens the difference stays where it is. -/
theorem stepGap (differ : AllDiffer key d e s t) (c : Char) :
    Reader.Differ key d e (Reader.stepGap s c) (Reader.stepGap t c) := by
  cases gap : Reader.isGap c with
  | true => simpa only [Reader.stepGap, gap, if_true] using Reader.Differ.reading differ .gap
  | false =>
    cases differ with
    | outermost differ =>
      cases differ with
      | items more wait =>
        exact stepGap_items gap (fun wait => .outermost (.items more wait))
          (.complete (.arr_reverse more true) false)
      | members more done wait =>
        exact stepGap_members gap (fun wait => .outermost (.members more done wait))
          (.complete (.obj_reverse more done true) false)
    | inner frame differ =>
      cases frame with
      | items done wait =>
        exact stepGap_items gap (fun wait => .inner (.items done wait) differ) (differ.deliver _)
      | members done wait =>
        exact stepGap_members gap (fun wait => .inner (.members done wait) differ) (differ.deliver _)

end Frame.AllDiffer

namespace Reader

namespace Differ

variable {r q : Reader}

/-- Between two tokens, and where the reading is over. -/
theorem step_rest (differ : Differ key d e r q)
    (rests : ∀ {stack lexeme}, r = .reading stack lexeme → lexeme = .gap)
    (c : Char) : Differ key d e (r.step (some c)) (q.step (some c)) := by
  cases differ with
  | halted differ => exact .halted differ
  | complete differ trailing => exact .complete differ _
  | reading differ lexeme =>
    obtain rfl := rests rfl
    exact differ.stepGap c

theorem step (differ : Differ key d e r q) (c : Char) :
    Differ key d e (r.step (some c)) (q.step (some c)) := by
  cases differ with
  | halted differ => exact .halted differ
  | complete differ trailing => exact .complete differ _
  | reading differ lexeme =>
    cases lexeme with
    | gap => exact differ.stepGap c
    | word rest meaning =>
      cases rest with
      | nil => exact differ.halt
      | cons expected rest =>
        simp only [Reader.step]
        split_ifs
        · exact differ.halt
        · exact differ.deliver meaning
        · exact .reading differ _
    | number scan =>
      cases stepped : scan.step c with
      | after doc =>
        rw [step_number_after stepped, step_number_after stepped]
        exact (differ.deliver doc).step_rest deliver_lexeme c
      | more scan =>
        simp only [Reader.step, stepped]
        exact .reading differ _
      | last doc =>
        simp only [Reader.step, stepped]
        exact differ.deliver doc
      | fault =>
        simp only [Reader.step, stepped]
        exact differ.halt
    | string scan =>
      simp only [Reader.step]
      cases scan.step (some c) with
      | more scan => exact .reading differ _
      | last text | after text => exact differ.deliverString text
      | fault => exact differ.halt

theorem read (differ : Differ key d e r q) (cs : List Char) :
    Differ key d e (r.read (cs.map some)) (q.read (cs.map some)) := by
  induction cs generalizing r q with
  | nil => exact differ
  | cons c cs ih => exact ih (differ.step c)

theorem finish_rest (differ : Differ key d e r q)
    (rests : ∀ {stack lexeme}, r = .reading stack lexeme → lexeme = .gap) :
    Doc.Differ key d e r.finish.1 q.finish.1 ∧ r.finish.2 = q.finish.2 := by
  cases differ with
  | halted differ => exact ⟨differ, rfl⟩
  | complete differ trailing => exact ⟨differ, rfl⟩
  | reading differ lexeme =>
    obtain rfl := rests rfl
    exact ⟨differ.cutAt, rfl⟩

/-- The documents differ in that one part, and behind them the texts are alike. -/
theorem finish (differ : Differ key d e r q) :
    Doc.Differ key d e r.finish.1 q.finish.1 ∧ r.finish.2 = q.finish.2 := by
  cases differ with
  | halted differ => exact ⟨differ, rfl⟩
  | complete differ trailing => exact ⟨differ, rfl⟩
  | reading differ lexeme =>
    cases lexeme with
    | gap | word | string => exact ⟨differ.cutAt, rfl⟩
    | number scan =>
      cases result : scan.result? with
      | none =>
        simp only [Reader.finish, result]
        exact ⟨differ.cutAt, trivial⟩
      | some doc =>
        rw [finish_number result, finish_number result]
        exact (differ.deliver doc).finish_rest deliver_lexeme

end Differ

end Reader

/-! ## Records -/

namespace Fields

variable {ρ : Type} {r : Reading}

theorem acceptAll_append {γ : Type} (fs : Fields ρ γ) (front back : List (Option String × Doc))
    (slots : Slots fs) :
    fs.acceptAll r (front ++ back) slots = fs.acceptAll r front slots >>= fs.acceptAll r back := by
  induction front generalizing slots with
  | nil => rfl
  | cons member front ih =>
    obtain ⟨key, doc⟩ := member
    rw [List.cons_append, acceptAll, acceptAll]
    cases Doc.key key with
    | error => rfl
    | ok key =>
      simp only [bind, Except.bind] at ih ⊢
      cases fs.accept r key doc slots with
      | none =>
        dsimp only
        split_ifs
        · exact ih slots
        · rfl
      | some taken =>
        cases taken with
        | error => rfl
        | ok taken => exact ih taken

/-- The member of the first field. -/
theorem acceptAll_own {α β : Type} (field : Field ρ α) (rest : Fields ρ β)
    (back : List (Option String × Doc)) (taken : Slots (Fields.cons field rest)) :
    (Fields.cons field rest).acceptAll r ((some field.name, d) :: back) taken =
      (if taken.1.isSome then .error (.duplicateField field.name)
        else (field.codec.read r d).map fun a => (some a, taken.2)) >>=
        (Fields.cons field rest).acceptAll r back := by
  obtain ⟨slot, slots⟩ := taken
  simp only [acceptAll, Doc.key, Option.elim_some, accept, if_true, bind, Except.bind]
  rfl

/-- A record is the same if its first field is read alike. -/
theorem read_congr {α β : Type} {field : Field ρ α} {rest : Fields ρ β} {make : α → β} {a b : Doc}
    (same : ∀ r, field.codec.read r d = field.codec.read r e)
    (differ : Doc.Differ (some field.name) d e a b) :
    (Fields.cons field rest).read make r a = (Fields.cons field rest).read make r b := by
  cases differ with
  | arr items closed => simp only [read, positional, same]
  | obj front back closed =>
    have member (r : Reading) (taken : Slots (Fields.cons field rest)) :
        (Fields.cons field rest).acceptAll r ((some field.name, d) :: back) taken =
          (Fields.cons field rest).acceptAll r ((some field.name, e) :: back) taken := by
      rw [acceptAll_own, acceptAll_own, same]
    simp only [read, acceptAll_append, funext (member _)]

end Fields

end BlockGraph
