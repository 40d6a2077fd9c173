import BlockGraph.Feed.Channel
import BlockGraph.Proofs.Map

/-!
# Subscriptions to the channel feed

A subscription delivers what was accepted for its source while it was the source's current one, in this
order and whatever becomes of the source meanwhile: a source has many subscriptions one after another, and
the earlier ones may still have items to deliver.

* `ErrorsLast`, `NoErrors` — headers, with and without a failure behind them.
* `Lines.take_cases`, `line?_hangUp`, `deliver_cases` — what the calls do to lines.
* `Step`, `Note`, `Ledger` — the calls, what came of them, and a feed with what came of all calls so far.
* `currentOf`, `sourceOf`, `given`, `taken`, `isOver` — what is known from the notes alone.
* `Kept`, `Orderly` — the feed agrees with the notes, and nothing was given behind a failure.
* `subscriptions_deliver` — what every subscription delivers, and when it ends.
-/

namespace BlockGraph

/-- Headers, and behind them perhaps a failure. -/
def ErrorsLast (items : List FeedItem) : Prop :=
  ∃ (headers : List Header) (error : Option FeedError),
    items = headers.map .ok ++ error.toList.map .error

/-- Headers only. -/
def NoErrors (items : List FeedItem) : Prop := ∃ headers : List Header, items = headers.map .ok

section
variable {items : List FeedItem} {header : Header} {error : FeedError}

theorem ErrorsLast.tail (ordered : ErrorsLast (.ok header :: items)) : ErrorsLast items := by
  obtain ⟨headers, error, shape⟩ := ordered
  cases headers with
  | nil => cases error <;> simp at shape
  | cons first headers =>
    exact ⟨headers, error, by simpa using (List.cons.inj shape).2⟩

theorem ErrorsLast.last (ordered : ErrorsLast (.error error :: items)) : items = [] := by
  obtain ⟨headers, error, shape⟩ := ordered
  cases headers with
  | nil => cases error <;> simp_all
  | cons first headers => simp at shape

theorem NoErrors.tail (noErrors : NoErrors (.ok header :: items)) : NoErrors items := by
  obtain ⟨headers, shape⟩ := noErrors
  cases headers with
  | nil => simp at shape
  | cons first headers => exact ⟨headers, (List.cons.inj shape).2⟩

theorem NoErrors.not_error : ¬ NoErrors (.error error :: items) := by
  rintro ⟨headers, shape⟩
  cases headers <;> simp at shape

theorem NoErrors.append (noErrors : NoErrors items) (header : Header) :
    NoErrors (items ++ [.ok header]) := by
  obtain ⟨headers, rfl⟩ := noErrors
  exact ⟨headers ++ [header], by simp⟩

theorem NoErrors.errorsLast (noErrors : NoErrors items) : ErrorsLast items := by
  obtain ⟨headers, rfl⟩ := noErrors
  exact ⟨headers, none, by simp⟩

theorem NoErrors.append_error (noErrors : NoErrors items) (error : FeedError) :
    ErrorsLast (items ++ [.error error]) := by
  obtain ⟨headers, rfl⟩ := noErrors
  exact ⟨headers, some error, rfl⟩

end

/-- What a reader gets is the front of its line, which then lacks it, or nothing. -/
theorem Lines.take_cases (ls : Lines) (n : Nat) :
    (∃ item queue isOpen, ls.lines.get? n = some ⟨item :: queue, isOpen⟩ ∧
      ls.take n = ({ ls with lines := ls.lines.insert n ⟨queue, isOpen⟩ }, .item item)) ∨
    (ls.take n = (ls, .ended) ∧ ∀ line, ls.lines.get? n = some line → line = ⟨[], false⟩) ∨
    (ls.take n = (ls, .pending) ∧ ls.lines.get? n = some ⟨[], true⟩) := by
  unfold take
  cases found : ls.lines.get? n with
  | none => exact .inr (.inl ⟨rfl, nofun⟩)
  | some line =>
    obtain ⟨queue, isOpen⟩ := line
    cases queue with
    | cons item queue => exact .inl ⟨item, queue, isOpen, rfl, rfl⟩
    | nil =>
      cases isOpen with
      | true => exact .inr (.inr ⟨rfl, rfl⟩)
      | false => exact .inr (.inl ⟨rfl, fun _ same => (Option.some.inj same).symm⟩)

namespace ChannelFeed

variable {f : ChannelFeed} {source : String} {n : Nat} {line : Line} {item : FeedItem}

/-! ## What the calls do to lines -/

/-- The line of a number; there is none where nobody reads it. -/
def line? (f : ChannelFeed) (n : Nat) : Option Line := f.lines.lines.get? n

/-- The feed with another line in the place of one. -/
def withLine (f : ChannelFeed) (n : Nat) (line : Line) : ChannelFeed :=
  { f with lines := { f.lines with lines := f.lines.lines.insert n line } }

theorem line?_withLine (f : ChannelFeed) (n m : Nat) (line : Line) :
    (f.withLine n line).line? m = if m = n then some line else f.line? m :=
  SortedMap.get?_insert ..

theorem current_hangUp (f : ChannelFeed) (source other : String) :
    (f.hangUp source).current.get? other = if other = source then none else f.current.get? other := by
  unfold hangUp
  split
  next => exact SortedMap.get?_erase ..
  next none => by_cases same : other = source <;> simp [same, none]

theorem line?_hangUp (f : ChannelFeed) (source : String) (n : Nat) :
    (f.hangUp source).line? n = (f.line? n).map fun line =>
      if f.current.get? source = some n then { line with isOpen := false } else line := by
  unfold hangUp
  split
  next m current =>
    refine (SortedMap.get?_modify f.lines.lines m n _).trans ?_
    by_cases same : n = m
    · subst same
      simp only [current, if_true]
      rfl
    · have other : ¬ m = n := Ne.symm same
      simp only [current, Option.some.injEq, same, other, if_false]
      exact Option.map_id'.symm
  next none => simp [none]

theorem hangUp_refused (f : ChannelFeed) (source : String) : (f.hangUp source).refused = f.refused := by
  unfold hangUp
  split <;> rfl

theorem hangUp_capacity (f : ChannelFeed) (source : String) :
    (f.hangUp source).capacity = f.capacity := by
  unfold hangUp
  split <;> rfl

theorem hangUp_next (f : ChannelFeed) (source : String) :
    (f.hangUp source).lines.next = f.lines.next := by
  unfold hangUp
  split <;> rfl

/-- The feed with a new line for a source. -/
def begun (f : ChannelFeed) (source : String) : ChannelFeed :=
  { f with
    lines := (f.lines.add ⟨[], true⟩).1
    current := f.current.insert source f.lines.next }

theorem subscribe_eq (f : ChannelFeed) (source : String) : f.subscribe source =
    if f.refused.contains source then .error (.unavailable source)
    else .ok ((f.hangUp source).begun source, f.lines.next) := by
  rw [← hangUp_next f source]
  rfl

theorem deliver_cases (f : ChannelFeed) (n : Nat) (item : FeedItem) :
    (f.deliver n item).1 = f ∧ (f.deliver n item).2 ≠ .delivered ∨
      ∃ line, f.line? n = some line ∧ line.queue.length < f.room ∧
        f.deliver n item = (f.withLine n { line with queue := line.queue ++ [item] }, .delivered) := by
  unfold deliver
  split
  · exact .inl ⟨rfl, by simp⟩
  next read =>
    rw [Bool.not_eq_true, Bool.not_eq_false'] at read
    obtain ⟨line, found⟩ := SortedMap.contains_eq_true.1 read
    split
    next space =>
      have load : f.lines.load n = line.queue.length := by simp [Lines.load, found]
      refine .inr ⟨line, found, load ▸ space, ?_⟩
      simp only [withLine, Lines.put, SortedMap.modify, found]
    · exact .inl ⟨rfl, by simp⟩

theorem publish_cases (f : ChannelFeed) (source : String) (header : Header) :
    (f.publish source header).1 = f ∧ (f.publish source header).2 ≠ .delivered ∨
      ∃ n line, f.current.get? source = some n ∧ f.line? n = some line ∧
        line.queue.length < f.room ∧ f.publish source header =
          (f.withLine n { line with queue := line.queue ++ [.ok header] }, .delivered) := by
  unfold publish
  split
  next n current =>
    refine (f.deliver_cases n (.ok header)).imp_right ?_
    rintro ⟨line, found⟩
    exact ⟨n, line, current, found⟩
  next => exact .inl ⟨rfl, by simp⟩

/-- A failure ends the subscription, whether or not its reader can be told. -/
theorem fail_cases (f : ChannelFeed) (source reason : String) :
    (f.fail source reason).1 = f.hangUp source ∧ (f.fail source reason).2 ≠ .delivered ∨
      ∃ n line, f.current.get? source = some n ∧ (f.hangUp source).line? n = some line ∧
        line.queue.length < (f.hangUp source).room ∧ f.fail source reason =
          ((f.hangUp source).withLine n
            { line with queue := line.queue ++ [.error (.disconnected reason)] }, .delivered) := by
  unfold fail
  split
  next n current =>
    refine ((f.hangUp source).deliver_cases n (.error (.disconnected reason))).imp_right ?_
    rintro ⟨line, found⟩
    exact ⟨n, line, current, found⟩
  next none => exact .inl ⟨by rw [hangUp, none], by simp⟩

/-! ## Calls and what came of them -/

inductive Step where
  | subscribe (source : String)
  | publish (source : String) (header : Header)
  | fail (source reason : String)
  | close (source : String)
  | refuse (source : String)
  | allow (source : String)
  | receive (n : Nat)
  | drop (n : Nat)

/-- What came of a call. Calls that came to nothing leave no note. -/
inductive Note where
  | subscribed (source : String) (n : Nat)
  /-- An item that was published, or the failure that a source ended with. -/
  | accepted (source : String) (item : FeedItem)
  /-- A source was closed, or it failed, even where its reader could not be told. -/
  | hungUp (source : String)
  | refused (source : String)
  | allowed (source : String)
  | received (n : Nat) (item : FeedItem)
  | dropped (n : Nat)

/-- A feed, and what came of the calls so far, the latest first. -/
structure Ledger where
  feed : ChannelFeed
  past : List Note

namespace Ledger

def start (capacity : Nat) : Ledger := ⟨.new capacity, []⟩

/-- The notes after an item was brought. -/
def told (l : Ledger) (source : String) (item : FeedItem) (delivery : Delivery) : List Note :=
  if delivery = .delivered then .accepted source item :: l.past else l.past

def next (l : Ledger) : Step → Ledger
  | .subscribe source =>
    match l.feed.subscribe source with
    | .ok (feed, n) => ⟨feed, .subscribed source n :: l.past⟩
    | .error _ => l
  | .publish source header =>
    let (feed, delivery) := l.feed.publish source header
    ⟨feed, l.told source (.ok header) delivery⟩
  | .fail source reason =>
    let (feed, delivery) := l.feed.fail source reason
    ⟨feed, .hungUp source :: l.told source (.error (.disconnected reason)) delivery⟩
  | .close source => ⟨(l.feed.close source).1, .hungUp source :: l.past⟩
  | .refuse source => ⟨l.feed.refuse source, .refused source :: l.past⟩
  | .allow source => ⟨l.feed.allow source, .allowed source :: l.past⟩
  | .receive n =>
    match l.feed.take n with
    | (feed, .item item) => ⟨feed, .received n item :: l.past⟩
    | (feed, _) => ⟨feed, l.past⟩
  | .drop n => ⟨l.feed.release n, .dropped n :: l.past⟩

def after (l : Ledger) (steps : List Step) : Ledger := steps.foldl next l

end Ledger

/-! ## What the notes tell -/

/-- The current subscription of a source. -/
def currentOf (source : String) : List Note → Option Nat
  | [] => none
  | .subscribed other n :: past => if other = source then some n else currentOf source past
  | .hungUp other :: past => if other = source then none else currentOf source past
  | _ :: past => currentOf source past

/-- The source of a subscription that has not been dropped. -/
def sourceOf (n : Nat) : List Note → Option String
  | [] => none
  | .subscribed source m :: past => if m = n then some source else sourceOf n past
  | .dropped m :: past => if m = n then none else sourceOf n past
  | _ :: past => sourceOf n past

/-- Whether a source gets no subscription. -/
def refusedOf (source : String) : List Note → Bool
  | [] => false
  | .refused other :: past => other == source || refusedOf source past
  | .allowed other :: past => other != source && refusedOf source past
  | _ :: past => refusedOf source past

/-- The items that were accepted for the source of a subscription while it was the current one. -/
def given (n : Nat) : List Note → List FeedItem
  | [] => []
  | .accepted source item :: past =>
    if currentOf source past = some n then given n past ++ [item] else given n past
  | _ :: past => given n past

/-- The items that a subscription has received. -/
def taken (n : Nat) : List Note → List FeedItem
  | [] => []
  | .received m item :: past => if m = n then taken n past ++ [item] else taken n past
  | _ :: past => taken n past

def Note.begins (n : Nat) : Note → Bool
  | .subscribed _ m => m == n
  | _ => false

def Note.ends (source : String) : Note → Bool
  | .subscribed other _ | .hungUp other => other == source
  | _ => false

/-- Whether a source was closed, failed or was subscribed to again since a subscription began. -/
def isOver (source : String) (n : Nat) (past : List Note) : Bool :=
  (past.takeWhile (!·.begins n)).any (·.ends source)

variable {past : List Note}

theorem currentOf_eq_some_iff (here : sourceOf n past = some source) :
    currentOf source past = some n ↔ isOver source n past = false := by
  unfold isOver
  induction past with
  | nil => cases here
  | cons note past ih =>
    cases note with
    | subscribed other m =>
      simp only [sourceOf] at here
      by_cases begins : m = n
      · rw [if_pos begins, Option.some.injEq] at here
        simp [currentOf, Note.begins, begins, here]
      · rw [if_neg begins] at here
        by_cases same : other = source
        · simp [currentOf, Note.begins, Note.ends, begins, same]
        · simpa [currentOf, Note.begins, Note.ends, begins, same] using ih here
    | hungUp other =>
      by_cases same : other = source
      · simp [currentOf, Note.begins, Note.ends, same]
      · simpa [currentOf, Note.begins, Note.ends, same] using ih here
    | dropped m =>
      simp only [sourceOf] at here
      split at here
      next => cases here
      next => simpa [currentOf, Note.begins, Note.ends] using ih here
    | accepted | refused | allowed | received =>
      simpa [currentOf, Note.begins, Note.ends] using ih here

/-! ## The feed and the notes -/

/-- What a feed holds is what the notes tell. -/
structure Kept (capacity : Nat) (l : Ledger) : Prop where
  sized : l.feed.capacity = capacity
  current : ∀ source, l.feed.current.get? source = currentOf source l.past
  refused : ∀ source, l.feed.refused.contains source = refusedOf source l.past
  there : ∀ n, (l.feed.line? n).isSome = (sourceOf n l.past).isSome
  whole : ∀ n line, l.feed.line? n = some line → taken n l.past ++ line.queue = given n l.past
  bounded : ∀ n line, l.feed.line? n = some line → line.queue.length ≤ max capacity 1
  opened : ∀ n line source, l.feed.line? n = some line → sourceOf n l.past = some source →
    (line.isOpen = true ↔ currentOf source l.past = some n)
  /-- A subscription is the current one of its own source only. -/
  owned : ∀ n source other, sourceOf n l.past = some source → currentOf other l.past = some n →
    other = source
  fresh : ∀ n, l.feed.lines.next ≤ n → sourceOf n l.past = none ∧ given n l.past = [] ∧
    taken n l.past = [] ∧ ∀ source, currentOf source l.past ≠ some n

/-- Nothing was given behind a failure, and no current subscription was given one. -/
structure Orderly (past : List Note) : Prop where
  ordered : ∀ n, ErrorsLast (given n past)
  clean : ∀ source n, currentOf source past = some n → NoErrors (given n past)

namespace Kept

variable {capacity : Nat} {l : Ledger}

theorem start (capacity : Nat) : Kept capacity (.start capacity) where
  sized := rfl
  current _ := rfl
  refused _ := rfl
  there _ := rfl
  whole _ _ none := nomatch none
  bounded _ _ none := nomatch none
  opened _ _ _ none := nomatch none
  owned _ _ _ none := nomatch none
  fresh _ _ := ⟨rfl, rfl, rfl, nofun⟩

/-- The line that a source had is left open no longer. -/
theorem hungUp (kept : Kept capacity ⟨f, past⟩) (source : String) :
    Kept capacity ⟨f.hangUp source, .hungUp source :: past⟩ where
  sized := (hangUp_capacity f source).trans kept.sized
  current other := by
    rw [current_hangUp, kept.current]
    simp only [currentOf, eq_comm]
  refused other := by
    rw [hangUp_refused]
    exact kept.refused other
  there n := by
    rw [line?_hangUp, Option.isSome_map]
    exact kept.there n
  whole n line found := by
    rw [line?_hangUp] at found
    obtain ⟨old, foundToo, rfl⟩ := Option.map_eq_some_iff.1 found
    have whole := kept.whole n old foundToo
    split <;> exact whole
  bounded n line found := by
    rw [line?_hangUp] at found
    obtain ⟨old, foundToo, rfl⟩ := Option.map_eq_some_iff.1 found
    have bounded := kept.bounded n old foundToo
    split <;> exact bounded
  opened n line other found here := by
    rw [line?_hangUp, kept.current] at found
    obtain ⟨old, foundToo, rfl⟩ := Option.map_eq_some_iff.1 found
    have opened := kept.opened n old other foundToo here
    simp only [currentOf]
    by_cases ended : currentOf source past = some n
    · obtain rfl := kept.owned n other source here ended
      simp [ended]
    · rw [if_neg ended, opened]
      by_cases same : source = other
      · simp [same ▸ ended, same]
      · simp [same]
  owned n other third here current := by
    simp only [currentOf] at current
    split at current
    next => cases current
    next => exact kept.owned n other third here current
  fresh n new := by
    rw [hangUp_next] at new
    obtain ⟨nobody, nothing, untaken, idle⟩ := kept.fresh n new
    refine ⟨nobody, nothing, untaken, fun other current => ?_⟩
    simp only [currentOf] at current
    split at current
    next => cases current
    next => exact idle other current

theorem refuse (kept : Kept capacity ⟨f, past⟩) (source : String) :
    Kept capacity ⟨f.refuse source, .refused source :: past⟩ :=
  { kept with
    refused := fun other => by
      refine (SortedSet.contains_add f.refused source other).trans ?_
      rw [kept.refused other]
      by_cases same : other = source
      · simp [refusedOf, same]
      · simp [refusedOf, same, Ne.symm same] }

theorem allow (kept : Kept capacity ⟨f, past⟩) (source : String) :
    Kept capacity ⟨f.allow source, .allowed source :: past⟩ :=
  { kept with
    refused := fun other => by
      have before := kept.refused other
      simp only [SortedMap.contains] at before
      simp only [SortedMap.contains, ChannelFeed.allow, SortedMap.get?_erase, refusedOf]
      by_cases same : other = source
      · simp [same]
      · simp [same, Ne.symm same, before] }

/-- A new line in the place of an old one, with notes that tell the same of everything else. -/
theorem withLine (kept : Kept capacity ⟨f, past⟩) {old : Line} (found : f.line? n = some old)
    (line : Line) (isOpen : line.isOpen = old.isOpen) (bounded : line.queue.length ≤ max capacity 1)
    {notes : List Note} (current : ∀ source, currentOf source notes = currentOf source past)
    (refused : ∀ source, refusedOf source notes = refusedOf source past)
    (sources : ∀ m, sourceOf m notes = sourceOf m past)
    (whole : taken n notes ++ line.queue = given n notes)
    (others : ∀ m, m ≠ n → taken m notes = taken m past ∧ given m notes = given m past) :
    Kept capacity ⟨f.withLine n line, notes⟩ where
  sized := kept.sized
  current source := (kept.current source).trans (current source).symm
  refused source := (kept.refused source).trans (refused source).symm
  there m := by
    have there := kept.there m
    rw [line?_withLine, sources, ← there]
    split
    next same => rw [same, found]; rfl
    next => rfl
  whole m read here := by
    rw [line?_withLine] at here
    split at here
    next same =>
      obtain rfl := Option.some.inj here
      exact same ▸ whole
    next other =>
      rw [(others m other).1, (others m other).2]
      exact kept.whole m read here
  bounded m read here := by
    rw [line?_withLine] at here
    split at here
    next => exact Option.some.inj here ▸ bounded
    next => exact kept.bounded m read here
  opened m read source here own := by
    rw [line?_withLine] at here
    rw [sources] at own
    rw [current]
    split at here
    next same =>
      obtain rfl := Option.some.inj here
      rw [isOpen]
      exact kept.opened m old source (same ▸ found) own
    next => exact kept.opened m read source here own
  owned m source other own running := by
    rw [sources] at own
    rw [current] at running
    exact kept.owned m source other own running
  fresh m new := by
    obtain ⟨nobody, nothing, untaken, idle⟩ := kept.fresh m new
    -- The line is there, so it is none of the new ones.
    have other : m ≠ n := by
      rintro rfl
      have there := kept.there m
      rw [show f.line? m = some old from found, nobody] at there
      cases there
    rw [sources, (others m other).1, (others m other).2]
    exact ⟨nobody, nothing, untaken, fun source => current source ▸ idle source⟩

theorem accepted (kept : Kept capacity ⟨f, past⟩) {old : Line} (found : f.line? n = some old)
    (space : old.queue.length < f.room) (item : FeedItem) {notes : List Note}
    (current : ∀ source, currentOf source notes = currentOf source past)
    (refused : ∀ source, refusedOf source notes = refusedOf source past)
    (sources : ∀ m, sourceOf m notes = sourceOf m past)
    (untaken : ∀ m, taken m notes = taken m past)
    (gives : ∀ m, given m notes = if m = n then given m past ++ [item] else given m past) :
    Kept capacity ⟨f.withLine n { old with queue := old.queue ++ [item] }, notes⟩ := by
  refine kept.withLine found ⟨old.queue ++ [item], old.isOpen⟩ rfl ?_ current refused sources ?_ ?_
  · have room : f.room = max capacity 1 := by rw [room, show f.capacity = capacity from kept.sized]
    rw [List.length_append, List.length_singleton, ← room]
    exact space
  · have whole : taken n past ++ old.queue = given n past := kept.whole n old found
    rw [untaken, gives, if_pos rfl, ← whole, List.append_assoc]
  · intro m other
    rw [untaken, gives, if_neg other]
    exact ⟨rfl, rfl⟩

theorem received (kept : Kept capacity ⟨f, past⟩) {queue : List FeedItem} {isOpen : Bool}
    (found : f.line? n = some ⟨item :: queue, isOpen⟩) :
    Kept capacity ⟨f.withLine n ⟨queue, isOpen⟩, .received n item :: past⟩ := by
  refine kept.withLine found ⟨queue, isOpen⟩ rfl ?_ (fun _ => rfl) (fun _ => rfl) (fun _ => rfl) ?_ ?_
  · exact Nat.le_trans (Nat.le_succ _) (kept.bounded n _ found)
  · have whole : taken n past ++ item :: queue = given n past := kept.whole n _ found
    simp only [taken, given, if_true, ← whole, List.append_assoc, List.singleton_append]
  · intro m other
    simp only [taken, given, if_neg (Ne.symm other), and_self]

theorem dropped (kept : Kept capacity ⟨f, past⟩) (n : Nat) :
    Kept capacity ⟨f.release n, .dropped n :: past⟩ := by
  have left (m : Nat) : (f.release n).line? m = if m = n then none else f.line? m :=
    SortedMap.get?_erase ..
  have stays {m : Nat} {line : Line} (found : (f.release n).line? m = some line) :
      m ≠ n ∧ f.line? m = some line := by
    rw [left] at found
    split at found
    next => cases found
    next other => exact ⟨other, found⟩
  have known {m : Nat} {source : String} (own : sourceOf m (.dropped n :: past) = some source) :
      sourceOf m past = some source := by
    simp only [sourceOf] at own
    split at own
    next => cases own
    next => exact own
  refine { kept with there := ?_, whole := ?_, bounded := ?_, opened := ?_, owned := ?_, fresh := ?_ }
  · intro m
    have there := kept.there m
    simp only [left, sourceOf]
    by_cases same : m = n
    · simp [same]
    · simpa [same, Ne.symm same] using there
  · exact fun m line found => kept.whole m line (stays found).2
  · exact fun m line found => kept.bounded m line (stays found).2
  · exact fun m line source found own => kept.opened m line source (stays found).2 (known own)
  · exact fun m source other own current => kept.owned m source other (known own) current
  · intro m new
    obtain ⟨nobody, rest⟩ := kept.fresh m new
    refine ⟨?_, rest⟩
    simp only [sourceOf]
    split
    · rfl
    · exact nobody

/-- A new subscription, after the one before has been hung up. -/
theorem begun (hungUp : Kept capacity ⟨f, .hungUp source :: past⟩) :
    Kept capacity ⟨f.begun source, .subscribed source f.lines.next :: past⟩ := by
  have lines (m : Nat) : (f.begun source).line? m =
      if m = f.lines.next then some ⟨[], true⟩ else f.line? m := SortedMap.get?_insert ..
  have currents (other : String) : (f.begun source).current.get? other =
      if other = source then some f.lines.next else f.current.get? other := SortedMap.get?_insert ..
  obtain ⟨nobody, nothing, untaken, idle⟩ := hungUp.fresh f.lines.next (Nat.le_refl _)
  refine ⟨hungUp.sized, fun other => ?_, hungUp.refused, fun m => ?_, fun m line found => ?_,
    fun m line found => ?_, fun m line other found own => ?_, fun m other third own current => ?_,
    fun m new => ?_⟩
  · have before : f.current.get? other = currentOf other (.hungUp source :: past) := hungUp.current other
    rw [currents, before]
    simp only [currentOf]
    by_cases same : other = source
    · simp [same]
    · simp [same, Ne.symm same]
  · have there : (f.line? m).isSome = (sourceOf m past).isSome := hungUp.there m
    simp only [lines, sourceOf]
    by_cases same : m = f.lines.next
    · simp [same]
    · simp [same, Ne.symm same, there]
  · rw [lines] at found
    split at found
    next same =>
      obtain rfl := Option.some.inj found
      simp only [taken, given] at nothing untaken ⊢
      rw [same, nothing, untaken]
      rfl
    next => exact hungUp.whole m line found
  · rw [lines] at found
    split at found
    next => exact Option.some.inj found ▸ Nat.zero_le _
    next => exact hungUp.bounded m line found
  · rw [lines] at found
    simp only [sourceOf] at own
    simp only [currentOf]
    split at found
    next same =>
      obtain rfl := Option.some.inj found
      rw [if_pos same.symm, Option.some.injEq] at own
      simp [own, same]
    next differ =>
      rw [if_neg (Ne.symm differ)] at own
      have opened := hungUp.opened m line other found own
      simp only [currentOf] at opened
      rw [opened]
      by_cases same : source = other
      · simp [same, Ne.symm differ]
      · simp [same]
  · simp only [sourceOf] at own
    simp only [currentOf] at current
    have before := hungUp.owned m other third
    have busy := idle third
    simp only [currentOf] at before busy
    by_cases same : f.lines.next = m
    · rw [if_pos same, Option.some.injEq] at own
      subst same
      by_cases here : source = third
      · exact here.symm.trans own
      · rw [if_neg here] at current busy
        exact absurd current busy
    · rw [if_neg same] at own
      by_cases here : source = third
      · rw [if_pos here, Option.some.injEq] at current
        exact absurd current same
      · rw [if_neg here] at current before
        exact before own current
  · have later : f.lines.next + 1 ≤ m := new
    obtain ⟨nobody, nothing, untaken, idle⟩ := hungUp.fresh m (Nat.le_of_succ_le later)
    have other : f.lines.next ≠ m := Nat.ne_of_lt later
    refine ⟨?_, nothing, untaken, fun third => ?_⟩
    · simp only [sourceOf, if_neg other]
      exact nobody
    · have busy := idle third
      simp only [currentOf] at busy ⊢
      split
      next => exact fun same => other (Option.some.inj same)
      next here =>
        rw [if_neg here] at busy
        exact busy

end Kept

namespace Orderly

theorem start : Orderly [] := ⟨fun _ => ⟨[], none, rfl⟩, nofun⟩

/-- Notes of other things than items leave alone what was given, and end subscriptions at most. -/
theorem congr (orderly : Orderly past) {notes : List Note} (gives : ∀ n, given n notes = given n past)
    (current : ∀ source n, currentOf source notes = some n →
      currentOf source past = some n ∨ given n past = []) : Orderly notes where
  ordered n := gives n ▸ orderly.ordered n
  clean source n running := by
    rw [gives]
    rcases current source n running with before | new
    · exact orderly.clean source n before
    · exact new ▸ ⟨[], rfl⟩

theorem hungUp (orderly : Orderly past) (source : String) : Orderly (.hungUp source :: past) := by
  refine orderly.congr (fun _ => rfl) fun other n running => .inl ?_
  simp only [currentOf] at running
  split at running
  next => cases running
  next => exact running

theorem published (orderly : Orderly past) (source : String) (header : Header) :
    Orderly (.accepted source (.ok header) :: past) where
  ordered n := by
    simp only [given]
    split
    next current => exact ((orderly.clean source n current).append header).errorsLast
    next => exact orderly.ordered n
  clean other n running := by
    have noErrors := orderly.clean other n running
    simp only [given]
    split
    next => exact noErrors.append header
    next => exact noErrors

/-- A failure is the last item of a subscription that is nobody's current one from then on. -/
theorem failed (orderly : Orderly past) (error : FeedError)
    (owned : ∀ other, currentOf other past = currentOf source past → other = source) :
    Orderly (.hungUp source :: .accepted source (.error error) :: past) where
  ordered n := by
    simp only [given]
    split
    next current => exact (orderly.clean source n current).append_error error
    next => exact orderly.ordered n
  clean other n running := by
    simp only [currentOf] at running
    split at running
    next => cases running
    next differ =>
      have elsewhere : ¬ currentOf source past = some n := fun current =>
        differ (owned other (running.trans current.symm)).symm
      simp only [given, if_neg elsewhere]
      exact orderly.clean other n running

end Orderly

/-! ## Runs -/

/-- What holds of a feed and its notes at any time. -/
structure Ledger.Sound (capacity : Nat) (l : Ledger) : Prop where
  kept : Kept capacity l
  orderly : Orderly l.past

namespace Ledger.Sound

variable {capacity : Nat} {l : Ledger}

theorem subscribe (sound : l.Sound capacity) (source : String) :
    (l.next (.subscribe source)).Sound capacity := by
  obtain ⟨f, past⟩ := l
  obtain ⟨kept, orderly⟩ := sound
  simp only [next, subscribe_eq]
  by_cases refused : f.refused.contains source = true
  · simp only [refused, if_true]
    exact ⟨kept, orderly⟩
  · rw [if_neg refused]
    have begun := (kept.hungUp source).begun
    rw [hangUp_next] at begun
    refine ⟨begun, orderly.congr (fun _ => rfl) fun other n running => ?_⟩
    simp only [currentOf] at running
    split at running
    next =>
      obtain rfl := Option.some.inj running
      exact .inr (kept.fresh _ (Nat.le_refl _)).2.1
    next => exact .inl running

theorem publish (sound : l.Sound capacity) (source : String) (header : Header) :
    (l.next (.publish source header)).Sound capacity := by
  obtain ⟨f, past⟩ := l
  obtain ⟨kept, orderly⟩ := sound
  simp only [next]
  rcases f.publish_cases source header with ⟨same, lost⟩ | ⟨n, line, current, found, space, delivers⟩
  · rw [told, if_neg lost, same]
    exact ⟨kept, orderly⟩
  · rw [delivers]
    refine ⟨kept.accepted found space _ (fun _ => rfl) (fun _ => rfl) (fun _ => rfl) (fun _ => rfl) ?_,
      orderly.published source header⟩
    intro m
    have running : currentOf source past = some n := (kept.current source).symm.trans current
    simp only [told, if_true, given, running, Option.some.injEq, eq_comm]

theorem fail (sound : l.Sound capacity) (source reason : String) :
    (l.next (.fail source reason)).Sound capacity := by
  obtain ⟨f, past⟩ := l
  obtain ⟨kept, orderly⟩ := sound
  have hungUp := kept.hungUp source
  simp only [next]
  rcases f.fail_cases source reason with ⟨same, lost⟩ | ⟨n, line, current, found, space, delivers⟩
  · rw [told, if_neg lost, same]
    exact ⟨hungUp, orderly.hungUp source⟩
  · have running : currentOf source past = some n := (kept.current source).symm.trans current
    rw [delivers]
    refine ⟨hungUp.accepted found space _ (fun _ => rfl) (fun _ => rfl) (fun _ => rfl) (fun _ => rfl) ?_,
      orderly.failed _ fun other shared => ?_⟩
    · intro m
      simp only [told, if_true, given, running, Option.some.injEq, eq_comm]
    · -- The line is there, so somebody reads it, and its source is the only one that it belongs to.
      have there := hungUp.there n
      rw [show (f.hangUp source).line? n = some line from found] at there
      obtain ⟨owner, own⟩ := Option.isSome_iff_exists.1 there.symm
      have here : other = owner := kept.owned n owner other own (shared.trans running)
      exact here.trans (kept.owned n owner source own running).symm

theorem receive (sound : l.Sound capacity) (n : Nat) : (l.next (.receive n)).Sound capacity := by
  obtain ⟨f, past⟩ := l
  obtain ⟨kept, orderly⟩ := sound
  simp only [next, take]
  rcases f.lines.take_cases n with ⟨item, queue, isOpen, found, takes⟩ | ⟨takes, _⟩ | ⟨takes, _⟩
  · rw [takes]
    exact ⟨kept.received found, orderly.congr (fun _ => rfl) fun _ _ => .inl⟩
  · rw [takes]
    exact ⟨kept, orderly⟩
  · rw [takes]
    exact ⟨kept, orderly⟩

theorem next (sound : l.Sound capacity) (step : Step) : (l.next step).Sound capacity := by
  have aside {note : Note} (gives : ∀ n, given n (note :: l.past) = given n l.past)
      (current : ∀ source, currentOf source (note :: l.past) = currentOf source l.past) :
      Orderly (note :: l.past) :=
    sound.orderly.congr gives fun source _ running => .inl (current source ▸ running)
  cases step with
  | subscribe source => exact sound.subscribe source
  | publish source header => exact sound.publish source header
  | fail source reason => exact sound.fail source reason
  | close source => exact ⟨sound.kept.hungUp source, sound.orderly.hungUp source⟩
  | refuse source => exact ⟨sound.kept.refuse source, aside (fun _ => rfl) fun _ => rfl⟩
  | allow source => exact ⟨sound.kept.allow source, aside (fun _ => rfl) fun _ => rfl⟩
  | receive n => exact sound.receive n
  | drop n => exact ⟨sound.kept.dropped n, aside (fun _ => rfl) fun _ => rfl⟩

theorem after (sound : l.Sound capacity) (steps : List Step) : (l.after steps).Sound capacity := by
  induction steps generalizing l with
  | nil => exact sound
  | cons step steps ih => exact ih (sound.next step)

/-- A subscription has ended when nothing waits and its source has ended it. -/
theorem take_ended (sound : l.Sound capacity) {source : String} {n : Nat} {line : Line}
    (own : sourceOf n l.past = some source) (found : l.feed.line? n = some line) :
    (l.feed.take n).2 = .ended ↔ line.queue = [] ∧ isOver source n l.past = true := by
  have opened := (sound.kept.opened n line source found own).trans (currentOf_eq_some_iff own)
  have shut : isOver source n l.past = true ↔ line.isOpen = false := by
    rw [← Bool.not_eq_false, ← opened, Bool.not_eq_true]
  rw [shut]
  rw [take]
  rcases l.feed.lines.take_cases n with ⟨item, queue, isOpen, here, takes⟩ | ⟨takes, only⟩ | ⟨takes, here⟩
  · obtain rfl := Option.some.inj (here.symm.trans found)
    simp [takes]
  · obtain rfl := only line found
    simp [takes]
  · obtain rfl := Option.some.inj (here.symm.trans found)
    simp [takes]

end Ledger.Sound

/-- A feed that differs from another in that a source has no sender. -/
structure Hung (source : String) (f g : ChannelFeed) : Prop where
  capacity : g.capacity = f.capacity
  refused : g.refused = f.refused
  current : ∀ other, g.current.get? other = if other = source then none else f.current.get? other
  queues : ∀ n, (g.line? n).map (·.queue) = (f.line? n).map (·.queue)
  opened : ∀ n, (g.line? n).map (·.isOpen) =
    (f.line? n).map fun line => line.isOpen && f.current.get? source ≠ some n

theorem hung_hangUp (f : ChannelFeed) (source : String) : Hung source f (f.hangUp source) where
  capacity := hangUp_capacity f source
  refused := hangUp_refused f source
  current := current_hangUp f source
  queues n := by
    rw [line?_hangUp, Option.map_map]
    congr 1
    funext line
    simp only [Function.comp_apply]
    split <;> rfl
  opened n := by
    rw [line?_hangUp, Option.map_map]
    congr 1
    funext line
    by_cases current : f.current.get? source = some n <;> simp [current]

/-- Whatever is published, closed, failed and subscribed to, whoever receives and leaves, in whatever order
and however small the lines are: a subscription has received, and still has before it, what was accepted
for its source while it was the current one. It has no more items than its line holds, and none behind a
failure. It ends when it has received everything and its source has closed it, failed or begun another one.
A source that is refused gets no subscription. Where a line is full, a header is not published, and a
failure takes the sender away and does nothing else. -/
theorem subscriptions_deliver (capacity : Nat) (steps : List Step) :
    let l := (Ledger.start capacity).after steps
    (∀ n source, sourceOf n l.past = some source → ∃ line, l.feed.line? n = some line ∧
      taken n l.past ++ line.queue = given n l.past ∧
      line.queue.length ≤ max 1 capacity ∧
      ErrorsLast (given n l.past) ∧
      ((l.feed.take n).2 = .ended ↔ line.queue = [] ∧ isOver source n l.past = true)) ∧
    (∀ source, refusedOf source l.past = true →
      l.feed.subscribe source = .error (.unavailable source) ∧ l.next (.subscribe source) = l) ∧
    (∀ source header, (l.feed.publish source header).2 = .full → l.next (.publish source header) = l) ∧
    ∀ source reason, (l.feed.fail source reason).2 = .full →
      Hung source l.feed (l.next (.fail source reason)).feed := by
  intro l
  have sound : l.Sound capacity := Ledger.Sound.after ⟨.start capacity, .start⟩ steps
  refine ⟨fun n source own => ?_, fun source refused => ?_, fun source header full => ?_,
    fun source reason full => ?_⟩
  · have there := sound.kept.there n
    rw [own] at there
    obtain ⟨line, found⟩ := Option.isSome_iff_exists.1 there
    have bounded := sound.kept.bounded n line found
    exact ⟨line, found, sound.kept.whole n line found, Nat.max_comm 1 capacity ▸ bounded,
      sound.orderly.ordered n, sound.take_ended own found⟩
  · have error : l.feed.subscribe source = .error (.unavailable source) :=
      l.feed.subscribe_refused source ((sound.kept.refused source).trans refused)
    exact ⟨error, by simp only [Ledger.next, error]⟩
  · rcases l.feed.publish_cases source header with ⟨same, _⟩ | ⟨_, _, _, _, _, delivers⟩
    · simp only [Ledger.next, Ledger.told, full, same]
      rfl
    · rw [delivers] at full
      cases full
  · rcases l.feed.fail_cases source reason with ⟨same, _⟩ | ⟨_, _, _, _, _, delivers⟩
    · simp only [Ledger.next, same]
      exact hung_hangUp l.feed source
    · rw [delivers] at full
      cases full

/-- Lines of one item: the second header finds no room, and neither does the failure, which ends the
subscription all the same. Its reader receives the first header, and then the end. -/
theorem subscriptions_deliver_replaced :
    let l := (Ledger.start 0).after
      [.subscribe "a", .publish "a" (.new 1 "0x1" "0x0"), .publish "a" (.new 2 "0x2" "0x1"),
        .fail "a" "reset", .subscribe "a", .publish "a" (.new 3 "0x3" "0x2"), .receive 0]
    sourceOf 0 l.past = some "a" ∧ given 0 l.past = [.ok (.new 1 "0x1" "0x0")] ∧
      (l.feed.take 0).2 = .ended := by
  intro l
  have own : sourceOf 0 l.past = some "a" := by decide +kernel
  have items : given 0 l.past = [.ok (.new 1 "0x1" "0x0")] := by rfl
  have received : taken 0 l.past = [.ok (.new 1 "0x1" "0x0")] := by rfl
  obtain ⟨line, _, whole, _, _, ended⟩ := (subscriptions_deliver 0 _).1 0 "a" own
  have nothing : line.queue = [] := by
    have split : taken 0 l.past ++ line.queue = given 0 l.past := whole
    rw [items, received] at split
    exact (List.cons.inj split).2
  exact ⟨own, items, ended.2 ⟨nothing, by decide +kernel⟩⟩

end ChannelFeed

end BlockGraph
