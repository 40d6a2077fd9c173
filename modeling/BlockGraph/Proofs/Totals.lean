/-!
# Sums over lists

A measure of the elements of a list, added up, and how that changes with the list.

* `total` — the sum; `total_filter_out`, `total_replaced` — an element is left out, or another takes its
  place.
* `count_distinct_le`, `le_count_covering` — what is counted under some keys.
-/

namespace BlockGraph

/-- The sum of a measure over a list. -/
def total {α : Type} (measure : α → Nat) (l : List α) : Nat := l.foldr (fun a n => measure a + n) 0

section
variable {α β : Type}

theorem total_cons (measure : α → Nat) (a : α) (l : List α) :
    total measure (a :: l) = measure a + total measure l := rfl

theorem total_map (measure : β → Nat) (f : α → β) (l : List α) :
    total measure (l.map f) = total (measure ∘ f) l := List.foldr_map

theorem total_mono {measure other : α → Nat} {l : List α} (below : ∀ a ∈ l, measure a ≤ other a) :
    total measure l ≤ total other l := by
  induction l with
  | nil => exact Nat.le_refl 0
  | cons a l ih =>
    have rest := ih fun b member => below b (List.mem_cons_of_mem a member)
    exact Nat.add_le_add (below a List.mem_cons_self) rest

theorem total_succ {measure other : α → Nat} {l : List α} (above : ∀ a ∈ l, measure a + 1 = other a) :
    total other l = total measure l + l.length := by
  induction l with
  | nil => rfl
  | cons a l ih =>
    have here := above a List.mem_cons_self
    rw [total_cons, total_cons, List.length_cons, ih fun b member => above b (List.mem_cons_of_mem a member)]
    omega

/-- A sum that is smaller everywhere is so by as much as it is at one element. -/
theorem total_mono_at {measure other : α → Nat} {l : List α} (below : ∀ a ∈ l, measure a ≤ other a)
    {a : α} (member : a ∈ l) : total measure l + other a ≤ total other l + measure a := by
  induction l with
  | nil => cases member
  | cons b l ih =>
    have rest : ∀ c ∈ l, measure c ≤ other c := fun c listed => below c (List.mem_cons_of_mem b listed)
    rw [total_cons, total_cons]
    rcases List.mem_cons.1 member with rfl | member
    · have fewer := total_mono rest
      omega
    · have here := below b List.mem_cons_self
      have there := ih rest member
      omega

theorem total_filter_le (measure : α → Nat) (keep : α → Bool) (l : List α) :
    total measure (l.filter keep) ≤ total measure l := by
  induction l with
  | nil => exact Nat.le_refl 0
  | cons a l ih =>
    rw [total_cons, List.filter_cons]
    split
    · rw [total_cons]
      omega
    · omega

/-- What is filtered out does not count any more. -/
theorem total_filter_out (measure : α → Nat) {keep : α → Bool} {l : List α} {a : α} (member : a ∈ l)
    (out : keep a = false) : total measure (l.filter keep) + measure a ≤ total measure l := by
  induction l with
  | nil => cases member
  | cons b l ih =>
    rw [total_cons, List.filter_cons]
    rcases List.mem_cons.1 member with rfl | member
    · have fewer := total_filter_le measure keep l
      rw [out, if_neg Bool.false_ne_true]
      omega
    · have rest := ih member
      split
      · rw [total_cons]
        omega
      · omega

/-- One element of a list, known by its key, is replaced. -/
theorem total_replaced (measure : α → Nat) (key : α → Nat) {l : List α} (distinct : (l.map key).Nodup)
    {a : α} (member : a ∈ l) (b : α) :
    total measure (l.map fun c => if key c = key a then b else c) + measure a =
      total measure l + measure b := by
  induction l with
  | nil => cases member
  | cons c l ih =>
    rw [List.map_cons, List.nodup_cons] at distinct
    obtain ⟨fresh, distinct⟩ := distinct
    rw [List.map_cons, total_cons, total_cons]
    rcases List.mem_cons.1 member with rfl | member
    · -- No other element has the key.
      have others : ∀ d ∈ l, (if key d = key a then b else d) = d := by
        intro d listed
        exact if_neg fun same => fresh (List.mem_map.2 ⟨d, listed, same⟩)
      rw [if_pos rfl, List.map_congr_left others, List.map_id']
      omega
    · have other : key c ≠ key a := fun same => fresh (List.mem_map.2 ⟨a, member, same.symm⟩)
      have rest := ih distinct member
      rw [if_neg other]
      omega

/-- What is counted under a key, and what is left for the other keys. -/
theorem length_split (key : α → String) (k : String) (l : List α) :
    l.length = (l.filter (key · == k)).length + (l.filter (key · != k)).length := by
  induction l with
  | nil => rfl
  | cons a l ih => by_cases own : key a = k <;> simp [own] <;> omega

theorem filter_other (key : α → String) {k other : String} (apart : other ≠ k) (l : List α) :
    (l.filter (key · != k)).filter (key · == other) = l.filter (key · == other) := by
  rw [List.filter_filter]
  apply List.filter_congr
  intro a _
  by_cases own : key a = other <;> simp [own, apart]

/-- Under distinct keys nothing is counted twice. -/
theorem count_distinct_le (key : α → String) (keys : List String) (distinct : keys.Nodup) (l : List α) :
    total (fun k => (l.filter (key · == k)).length) keys ≤ l.length := by
  induction keys generalizing l with
  | nil => exact Nat.zero_le _
  | cons k keys ih =>
    obtain ⟨fresh, distinct⟩ := List.nodup_cons.1 distinct
    have rest := ih distinct (l.filter (key · != k))
    -- The other keys count the same among what is left.
    have same : total (fun other => ((l.filter (key · != k)).filter (key · == other)).length) keys =
        total (fun other => (l.filter (key · == other)).length) keys := by
      refine Nat.le_antisymm (total_mono fun other member => ?_) (total_mono fun other member => ?_)
      all_goals
        have apart : other ≠ k := fun equal => fresh (equal ▸ member)
        simp only [filter_other key apart, Nat.le_refl]
    rw [total_cons, length_split key k l]
    exact Nat.add_le_add_left (same ▸ rest) _

/-- Under keys that cover everything nothing is left out. -/
theorem le_count_covering (key : α → String) (keys : List String) (l : List α)
    (covers : ∀ a ∈ l, key a ∈ keys) :
    l.length ≤ total (fun k => (l.filter (key · == k)).length) keys := by
  induction keys generalizing l with
  | nil =>
    cases l with
    | nil => exact Nat.le_refl 0
    | cons a l => exact absurd (covers a List.mem_cons_self) List.not_mem_nil
  | cons k keys ih =>
    have rest := ih (l.filter (key · != k)) fun a member => by
      obtain ⟨listed, other⟩ := List.mem_filter.1 member
      exact (List.mem_cons.1 (covers a listed)).resolve_left (by simpa using other)
    have fewer : total (fun other => ((l.filter (key · != k)).filter (key · == other)).length) keys ≤
        total (fun other => (l.filter (key · == other)).length) keys := by
      refine total_mono fun other _ => ?_
      exact (List.filter_sublist.filter _).length_le
    rw [total_cons, length_split key k l]
    exact Nat.add_le_add_left (Nat.le_trans rest fewer) _

end

end BlockGraph
