/-!
# Sorted maps

Finite maps as lists of entries in strictly ascending key order. The order is part of the type, so
two maps with the same look-ups are the same value, and listing a map is listing its keys in order.

- `get?_insert`: an insertion changes the look-up of its own key alone.
- `get?_erase`: a removal does too.
- `SortedMap.ext_get?`: a map is determined by its look-ups.
-/

namespace BlockGraph

/-- A finite map, listed in strictly ascending key order. -/
structure SortedMap (κ ν : Type) [LT κ] where
  entries : List (κ × ν)
  ascending : entries.Pairwise (fun a b => a.1 < b.1)

/-- A finite set, listed in strictly ascending order. -/
abbrev SortedSet (κ : Type) [LT κ] := SortedMap κ Unit

namespace SortedMap

variable {κ ν : Type}

instance [LT κ] [DecidableEq κ] [DecidableEq ν] : DecidableEq (SortedMap κ ν) := fun a b =>
  decidable_of_iff (a.entries = b.entries)
    ⟨fun h => by cases a; cases b; cases h; rfl, fun h => h ▸ rfl⟩

instance [LT κ] [Repr κ] [Repr ν] : Repr (SortedMap κ ν) := ⟨fun m => reprPrec m.entries⟩

/-- The map without entries. -/
def empty [LT κ] : SortedMap κ ν := ⟨[], .nil⟩

instance [LT κ] : Inhabited (SortedMap κ ν) := ⟨empty⟩
instance [LT κ] : EmptyCollection (SortedMap κ ν) := ⟨empty⟩

/-- The entries in ascending key order. -/
def toList [LT κ] (m : SortedMap κ ν) : List (κ × ν) := m.entries

/-- The keys in ascending order. -/
def keys [LT κ] (m : SortedMap κ ν) : List κ := m.entries.map (·.1)

/-- The values in the order of their keys. -/
def values [LT κ] (m : SortedMap κ ν) : List ν := m.entries.map (·.2)

def size [LT κ] (m : SortedMap κ ν) : Nat := m.entries.length

def isEmpty [LT κ] (m : SortedMap κ ν) : Bool := m.entries.isEmpty

def maxKey? [LT κ] (m : SortedMap κ ν) : Option κ := m.entries.getLast?.map (·.1)

/-! ## Entry lists -/

/-- The value of the first entry with the key. -/
def find? [DecidableEq κ] (k : κ) : List (κ × ν) → Option ν
  | [] => none
  | (k', v) :: rest => if k = k' then some v else find? k rest

/-- Puts an entry in its place, over an entry of the same key. -/
def place [LT κ] [DecidableLT κ] [DecidableEq κ] (k : κ) (v : ν) : List (κ × ν) → List (κ × ν)
  | [] => [(k, v)]
  | (k', v') :: rest =>
    if k < k' then (k, v) :: (k', v') :: rest
    else if k = k' then (k, v) :: rest
    else (k', v') :: place k v rest

theorem mem_place [LT κ] [DecidableLT κ] [DecidableEq κ] {k : κ} {v : ν} {e : κ × ν}
    {es : List (κ × ν)} (h : e ∈ place k v es) : e = (k, v) ∨ e ∈ es := by
  induction es with
  | nil => simpa [place] using h
  | cons hd rest ih =>
    obtain ⟨k', v'⟩ := hd
    simp only [place] at h
    split at h
    · simpa using h
    · split at h
      · rcases List.mem_cons.1 h with h | h <;> simp [h]
      · rcases List.mem_cons.1 h with h | h
        · simp [h]
        · rcases ih h with h | h <;> simp [h]

theorem find?_place_self [LT κ] [DecidableLT κ] [DecidableEq κ] (k : κ) (v : ν)
    (es : List (κ × ν)) : find? k (place k v es) = some v := by
  induction es with
  | nil => simp [place, find?]
  | cons hd rest ih =>
    obtain ⟨k', v'⟩ := hd
    simp only [place]
    split
    · simp [find?]
    · split <;> simp_all [find?]

theorem find?_place_ne [LT κ] [DecidableLT κ] [DecidableEq κ] {k k₂ : κ} (v : ν)
    (es : List (κ × ν)) (h : k₂ ≠ k) : find? k₂ (place k v es) = find? k₂ es := by
  induction es with
  | nil => simp [place, find?, h]
  | cons hd rest ih =>
    obtain ⟨k', v'⟩ := hd
    simp only [place]
    split
    · simp [find?, h]
    · split
      · next hk => subst hk; simp [find?, h]
      · simp [find?, ih]

theorem find?_eq_none_iff [DecidableEq κ] {k : κ} {es : List (κ × ν)} :
    find? k es = none ↔ ∀ e ∈ es, e.1 ≠ k := by
  induction es with
  | nil => simp [find?]
  | cons hd rest ih =>
    obtain ⟨k', v'⟩ := hd
    by_cases h : k = k'
    · simp [find?, h]
    · simp [find?, h, ih, Ne.symm h]

theorem mem_of_find? [DecidableEq κ] {k : κ} {v : ν} {es : List (κ × ν)}
    (h : find? k es = some v) : (k, v) ∈ es := by
  induction es with
  | nil => simp [find?] at h
  | cons hd rest ih =>
    obtain ⟨k', v'⟩ := hd
    by_cases hk : k = k'
    · simp [find?, hk] at h; simp [hk, h]
    · simp [find?, hk] at h; simp [ih h]

/-! ## Look-up and removal -/

section
variable [LT κ] [DecidableEq κ]

/-- The value of a key. -/
def get? (m : SortedMap κ ν) (k : κ) : Option ν := find? k m.entries

def contains (m : SortedMap κ ν) (k : κ) : Bool := (m.get? k).isSome

/-- Drops a key. -/
def erase (m : SortedMap κ ν) (k : κ) : SortedMap κ ν :=
  ⟨m.entries.filter (fun e => e.1 ≠ k), m.ascending.filter _⟩

@[simp] theorem get?_empty (k : κ) : (empty : SortedMap κ ν).get? k = none := rfl

theorem get?_erase (m : SortedMap κ ν) (k k₂ : κ) :
    (m.erase k).get? k₂ = if k₂ = k then none else m.get? k₂ := by
  obtain ⟨es, h⟩ := m
  simp only [get?, erase]
  clear h
  induction es with
  | nil => simp [find?]
  | cons hd rest ih =>
    obtain ⟨k', v'⟩ := hd
    by_cases hk : k' = k
    · subst hk
      by_cases h2 : k₂ = k' <;> simp_all [find?]
    · by_cases h2 : k₂ = k
      · subst h2; simp_all [find?, Ne.symm hk]
      · by_cases h3 : k₂ = k' <;> simp_all [find?]

theorem mem_of_get? {m : SortedMap κ ν} {k : κ} {v : ν} (h : m.get? k = some v) :
    (k, v) ∈ m.toList := mem_of_find? h

end

/-! ## Insertion -/

section
variable [LT κ] [LE κ] [Std.IsLinearOrder κ] [Std.LawfulOrderLT κ] [DecidableLT κ] [DecidableEq κ]

omit [DecidableLT κ] [DecidableEq κ] in
theorem lt_of_not_lt_of_ne {a b : κ} (h : ¬ a < b) (hne : a ≠ b) : b < a := by
  rcases Std.lt_trichotomy a b with h' | h' | h'
  · exact absurd h' h
  · exact absurd h' hne
  · exact h'

theorem place_ascending (k : κ) (v : ν) {es : List (κ × ν)}
    (h : es.Pairwise (fun a b => a.1 < b.1)) :
    (place k v es).Pairwise (fun a b => a.1 < b.1) := by
  induction es with
  | nil => simp [place]
  | cons hd rest ih =>
    obtain ⟨k', v'⟩ := hd
    have hrest := List.pairwise_cons.1 h
    simp only [place]
    split
    · next hk =>
      refine List.pairwise_cons.2 ⟨fun e he => ?_, h⟩
      rcases List.mem_cons.1 he with rfl | he
      · exact hk
      · exact Std.lt_trans hk (hrest.1 e he)
    · split
      · next hk => subst hk; exact List.pairwise_cons.2 ⟨hrest.1, hrest.2⟩
      · next h1 h2 =>
        refine List.pairwise_cons.2 ⟨fun e he => ?_, ih hrest.2⟩
        rcases mem_place he with rfl | he
        · exact lt_of_not_lt_of_ne h1 h2
        · exact hrest.1 e he

/-- Gives a key a value, over the one it had. -/
def insert (m : SortedMap κ ν) (k : κ) (v : ν) : SortedMap κ ν :=
  ⟨place k v m.entries, place_ascending k v m.ascending⟩

/-- Appends to the list kept under a key. -/
def append {α : Type} (m : SortedMap κ (List α)) (k : κ) (a : α) : SortedMap κ (List α) :=
  m.insert k ((m.get? k).getD [] ++ [a])

/-- Changes the value of a key that the map has. -/
def modify (m : SortedMap κ ν) (k : κ) (f : ν → ν) : SortedMap κ ν :=
  match m.get? k with
  | some v => m.insert k (f v)
  | none => m

/-- The map of a list of entries; of two with one key the later counts. -/
def ofList (es : List (κ × ν)) : SortedMap κ ν := es.foldl (fun m e => m.insert e.1 e.2) empty

theorem get?_insert (m : SortedMap κ ν) (k k₂ : κ) (v : ν) :
    (m.insert k v).get? k₂ = if k₂ = k then some v else m.get? k₂ := by
  by_cases h : k₂ = k
  · subst h; simp [get?, insert, find?_place_self]
  · simp [get?, insert, h, find?_place_ne v m.entries h]

@[simp] theorem get?_insert_self (m : SortedMap κ ν) (k : κ) (v : ν) :
    (m.insert k v).get? k = some v := by simp [get?_insert]

omit [DecidableLT κ] [Std.IsLinearOrder κ] in
theorem get?_of_mem {m : SortedMap κ ν} {k : κ} {v : ν} (h : (k, v) ∈ m.toList) :
    m.get? k = some v := by
  obtain ⟨es, asc⟩ := m
  simp only [toList, get?] at h ⊢
  induction es with
  | nil => simp at h
  | cons hd rest ih =>
    obtain ⟨k', v'⟩ := hd
    have hrest := List.pairwise_cons.1 asc
    rcases List.mem_cons.1 h with h | h
    · cases h; simp [find?]
    · have hne : k ≠ k' := fun e => Std.lt_irrefl (e ▸ hrest.1 (k, v) h)
      simp [find?, hne, ih hrest.2 h]

omit [DecidableLT κ] in
/-- A map is determined by its look-ups. -/
theorem ext_get? {a b : SortedMap κ ν} (h : ∀ k, a.get? k = b.get? k) : a = b := by
  have hab : ∀ e, e ∈ a.entries ↔ e ∈ b.entries := fun e =>
    ⟨fun he => mem_of_get? ((h e.1) ▸ get?_of_mem he),
      fun he => mem_of_get? ((h e.1).symm ▸ get?_of_mem he)⟩
  obtain ⟨as, ha⟩ := a
  obtain ⟨bs, hb⟩ := b
  suffices as = bs by subst this; rfl
  simp only at hab
  clear h
  induction as generalizing bs with
  | nil =>
    cases bs with
    | nil => rfl
    | cons e bs => exact absurd ((hab e).2 (by simp)) (by simp)
  | cons e as ih =>
    cases bs with
    | nil => exact absurd ((hab e).1 (by simp)) (by simp)
    | cons e' bs =>
      have ha' := List.pairwise_cons.1 ha
      have hb' := List.pairwise_cons.1 hb
      have he : e = e' := by
        rcases List.mem_cons.1 ((hab e).1 (by simp)) with h1 | h1
        · exact h1
        · rcases List.mem_cons.1 ((hab e').2 (by simp)) with h2 | h2
          · exact h2.symm
          · exact absurd (Std.lt_trans (ha'.1 e' h2) (hb'.1 e h1)) Std.lt_irrefl
      subst he
      have hrest : ∀ x, x ∈ as ↔ x ∈ bs := fun x => by
        constructor
        · intro hx
          rcases List.mem_cons.1 ((hab x).1 (List.mem_cons_of_mem _ hx)) with h1 | h1
          · subst h1; exact absurd (ha'.1 x hx) Std.lt_irrefl
          · exact h1
        · intro hx
          rcases List.mem_cons.1 ((hab x).2 (List.mem_cons_of_mem _ hx)) with h1 | h1
          · subst h1; exact absurd (hb'.1 x hx) Std.lt_irrefl
          · exact h1
      rw [ih ha'.2 bs hb'.2 hrest]

end

end SortedMap

namespace SortedSet

variable {κ : Type} [LT κ] [LE κ] [Std.IsLinearOrder κ] [Std.LawfulOrderLT κ] [DecidableLT κ]
  [DecidableEq κ]

def add (s : SortedSet κ) (k : κ) : SortedSet κ := s.insert k ()

def ofList (ks : List κ) : SortedSet κ := ks.foldl add SortedMap.empty

def singleton (k : κ) : SortedSet κ := add SortedMap.empty k

end SortedSet

end BlockGraph
