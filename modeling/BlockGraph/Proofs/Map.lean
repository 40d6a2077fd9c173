import BlockGraph.Map
import Mathlib.Data.List.Nodup

/-!
# Look-ups in sorted maps

What each change of a map or a set does to its look-ups, and what its listing says about its keys.

* `SortedMap.get?_append`, `SortedMap.get?_modify` — one key changes, the others stay.
* `SortedMap.mem_keys`, `SortedMap.keys_ascending` — the keys are listed once each, in order.
* `SortedMap.ofList_toList`, `SortedSet.ofList_keys` — a map is made of its own entries.
* `SortedMap.ofList_eq_mergeSort` — a map of entries with different keys lists these, sorted.
* `SortedMap.get?_mapKeys`, `SortedMap.insert_mapKeys` — keys renamed in their order.
* `SortedSet.add_of_contains` — an element that is there already is not added again.
-/

namespace BlockGraph

namespace SortedMap

variable {κ ν : Type}

/-! ## Keys -/

theorem keys_ascending [LT κ] (m : SortedMap κ ν) : m.keys.Pairwise (· < ·) :=
  List.pairwise_map.2 m.ascending

section
variable [LT κ] [DecidableEq κ]

theorem mem_keys {m : SortedMap κ ν} {k : κ} : k ∈ m.keys ↔ (m.get? k).isSome = true := by
  constructor
  · intro member
    obtain ⟨entry, listed, rfl⟩ := List.mem_map.1 member
    cases found : m.get? entry.1 with
    | some value => rfl
    | none => exact absurd rfl (find?_eq_none_iff.1 found entry listed)
  · intro some
    obtain ⟨value, found⟩ := Option.isSome_iff_exists.1 some
    exact List.mem_map.2 ⟨(k, value), mem_of_get? found, rfl⟩

theorem contains_eq_true {m : SortedMap κ ν} {k : κ} :
    m.contains k = true ↔ ∃ value, m.get? k = some value := Option.isSome_iff_exists

theorem contains_eq_false {m : SortedMap κ ν} {k : κ} :
    m.contains k = false ↔ m.get? k = none := by
  simp [contains]

end

section
variable [LT κ] [LE κ] [Std.IsLinearOrder κ] [Std.LawfulOrderLT κ] [DecidableLT κ] [DecidableEq κ]

omit [DecidableLT κ] [Std.IsLinearOrder κ] in
theorem mem_toList {m : SortedMap κ ν} {k : κ} {v : ν} :
    (k, v) ∈ m.toList ↔ m.get? k = some v := ⟨get?_of_mem, mem_of_get?⟩

/-! ## Changes of one key -/

theorem insert_insert (m : SortedMap κ ν) (k : κ) (v w : ν) :
    (m.insert k v).insert k w = m.insert k w := by
  apply ext_get?
  intro k₂
  rw [get?_insert, get?_insert, get?_insert]
  split <;> rfl

theorem get?_append {α : Type} (m : SortedMap κ (List α)) (k k₂ : κ) (a : α) :
    (m.append k a).get? k₂ = if k₂ = k then some ((m.get? k).getD [] ++ [a]) else m.get? k₂ :=
  get?_insert m k k₂ _

theorem get?_modify (m : SortedMap κ ν) (k k₂ : κ) (f : ν → ν) :
    (m.modify k f).get? k₂ = if k₂ = k then (m.get? k).map f else m.get? k₂ := by
  unfold modify
  split
  next value found => simp [get?_insert, found]
  next absent =>
    by_cases same : k₂ = k
    · simp [same, absent]
    · simp [same]

omit [DecidableLT κ] [DecidableEq κ] [Std.IsLinearOrder κ] in
theorem keys_nodup (m : SortedMap κ ν) : m.keys.Nodup := by
  refine m.keys_ascending.imp ?_
  rintro k _ before rfl
  exact Std.lt_irrefl before

omit [DecidableLT κ] [DecidableEq κ] in
theorem keys_eq_of_mem_iff {m n : SortedMap κ ν} (same : ∀ k, k ∈ m.keys ↔ k ∈ n.keys) :
    m.keys = n.keys := by
  -- Both listings are sorted, so as permutations of each other they are the same.
  have perm := (List.perm_ext_iff_of_nodup m.keys_nodup n.keys_nodup).2 same
  refine perm.eq_of_pairwise (fun a b _ _ before after => ?_) m.keys_ascending n.keys_ascending
  exact absurd (Std.lt_trans before after) Std.lt_irrefl

/-! ## Maps of entries -/

theorem mem_foldl_insert {es : List (κ × ν)} {m : SortedMap κ ν} {e : κ × ν}
    (member : e ∈ (es.foldl (fun m e => m.insert e.1 e.2) m).toList) : e ∈ es ∨ e ∈ m.toList := by
  induction es generalizing m with
  | nil => exact .inr member
  | cons d es ih =>
    rcases ih member with later | placed
    · exact .inl (List.mem_cons_of_mem d later)
    · rcases mem_place placed with rfl | old
      · exact .inl List.mem_cons_self
      · exact .inr old

/-- A map of entries has no others. -/
theorem mem_of_mem_ofList {es : List (κ × ν)} {e : κ × ν} (member : e ∈ (ofList es).toList) : e ∈ es :=
  (mem_foldl_insert member).resolve_right List.not_mem_nil

theorem get?_foldl_insert {es : List (κ × ν)} (distinct : es.Pairwise fun d e => d.1 ≠ e.1)
    (m : SortedMap κ ν) (k : κ) :
    (es.foldl (fun m e => m.insert e.1 e.2) m).get? k = (find? k es).or (m.get? k) := by
  induction es generalizing m with
  | nil => rfl
  | cons e es ih =>
    obtain ⟨apart, distinct⟩ := List.pairwise_cons.1 distinct
    rw [List.foldl_cons, ih distinct, get?_insert, find?]
    by_cases own : k = e.1
    · have absent : find? k es = none := find?_eq_none_iff.2 fun d member same =>
        apart d member (own.symm.trans same.symm)
      simp [own ▸ absent, own]
    · simp [own]

/-- The entries of a map make the same map. -/
theorem ofList_toList (m : SortedMap κ ν) : ofList m.toList = m := by
  apply ext_get?
  intro k
  have distinct : m.toList.Pairwise fun d e => d.1 ≠ e.1 := by
    refine m.ascending.imp fun before same => ?_
    rw [same] at before
    exact Std.lt_irrefl before
  rw [ofList, get?_foldl_insert distinct, get?_empty, Option.or_none]
  rfl

omit [LT κ] [LE κ] [Std.IsLinearOrder κ] [Std.LawfulOrderLT κ] [DecidableLT κ] in
theorem find?_of_mem {es : List (κ × ν)} (distinct : (es.map (·.1)).Nodup) {e : κ × ν} (member : e ∈ es) :
    find? e.1 es = some e.2 := by
  induction es with
  | nil => cases member
  | cons d es ih =>
    obtain ⟨apart, distinct⟩ := List.nodup_cons.1 distinct
    rcases List.mem_cons.1 member with rfl | later
    · simp [find?]
    · have other : e.1 ≠ d.1 := fun same => apart (List.mem_map.2 ⟨e, later, same⟩)
      rw [find?, if_neg other]
      exact ih distinct later

/-- Of entries with different keys each is listed once. -/
theorem ofList_perm {es : List (κ × ν)} (distinct : (es.map (·.1)).Nodup) : (ofList es).toList.Perm es := by
  have listed : (ofList es).toList.Nodup := by
    have keys : ((ofList es).toList.map (·.1)).Nodup := (ofList es).keys_nodup
    exact List.Nodup.of_map _ keys
  refine (List.perm_ext_iff_of_nodup listed (List.Nodup.of_map _ distinct)).2 fun e => ?_
  refine ⟨mem_of_mem_ofList, fun member => mem_toList.2 ?_⟩
  have apart : es.Pairwise fun d e => d.1 ≠ e.1 := List.pairwise_map.1 distinct
  rw [ofList, get?_foldl_insert apart, find?_of_mem distinct member]
  rfl

/-- The map of entries with different keys lists them in the order of the keys. -/
theorem ofList_eq_mergeSort [DecidableLE κ] {es : List (κ × ν)} (distinct : (es.map (·.1)).Nodup) :
    (ofList es).toList = es.mergeSort fun d e => decide (d.1 ≤ e.1) := by
  have perm : (ofList es).toList.Perm (es.mergeSort fun d e => decide (d.1 ≤ e.1)) :=
    (ofList_perm distinct).trans (List.mergeSort_perm _ _).symm
  have same : ∀ d e, d ∈ (ofList es).toList → e ∈ es.mergeSort (fun d e => decide (d.1 ≤ e.1)) →
      d.1 ≤ e.1 → e.1 ≤ d.1 → d = e := by
    intro d e here there before after
    have key : d.1 = e.1 := Std.le_antisymm before after
    have value := find?_of_mem distinct ((ofList_perm distinct).mem_iff.1 here)
    rw [key, find?_of_mem distinct (List.mem_mergeSort.1 there)] at value
    exact Prod.ext key (Option.some.inj value).symm
  have ascending : (ofList es).toList.Pairwise fun d e => d.1 ≤ e.1 := (ofList es).ascending.imp Std.le_of_lt
  have trans (a b c : κ × ν) (first : decide (a.1 ≤ b.1) = true) (second : decide (b.1 ≤ c.1) = true) :
      decide (a.1 ≤ c.1) = true :=
    decide_eq_true (Std.le_trans (of_decide_eq_true first) (of_decide_eq_true second))
  have total (a b : κ × ν) : (decide (a.1 ≤ b.1) || decide (b.1 ≤ a.1)) = true := by
    simpa using Std.le_total
  have sorted := (List.pairwise_mergeSort trans total es).imp of_decide_eq_true
  exact perm.eq_of_pairwise same ascending sorted

/-! ## Renamed keys -/

section
variable {κ' : Type} [LT κ'] {name : κ → κ'} (mono : ∀ {a b}, a < b → name a < name b)

/-- The map with its keys renamed, each in its place. -/
def mapKeys (m : SortedMap κ ν) : SortedMap κ' ν :=
  ⟨m.entries.map fun e => (name e.1, e.2), List.pairwise_map.2 (m.ascending.imp mono)⟩

variable [DecidableEq κ'] [DecidableLT κ'] [LE κ'] [Std.IsLinearOrder κ'] [Std.LawfulOrderLT κ']

include mono in
omit [DecidableLT κ] [DecidableEq κ] [DecidableEq κ'] [DecidableLT κ'] [Std.IsLinearOrder κ'] in
theorem name_inj {a b : κ} : name a = name b ↔ a = b := by
  refine ⟨fun same => ?_, congrArg name⟩
  rcases Std.lt_trichotomy a b with before | equal | after
  · exact absurd (mono before) (same ▸ Std.lt_irrefl)
  · exact equal
  · exact absurd (mono after) (same ▸ Std.lt_irrefl)

include mono in
omit [DecidableLT κ] [DecidableEq κ] [DecidableEq κ'] [DecidableLT κ'] in
theorem name_lt_iff {a b : κ} : name a < name b ↔ a < b := by
  refine ⟨fun before => ?_, mono⟩
  rcases Std.lt_trichotomy a b with first | rfl | later
  · exact first
  · exact absurd before Std.lt_irrefl
  · exact absurd (Std.lt_trans before (mono later)) Std.lt_irrefl

omit [DecidableLT κ] [DecidableLT κ'] [Std.IsLinearOrder κ'] in
theorem get?_mapKeys (m : SortedMap κ ν) (k : κ) : (m.mapKeys mono).get? (name k) = m.get? k := by
  obtain ⟨es, ascending⟩ := m
  simp only [get?, mapKeys]
  clear ascending
  induction es with
  | nil => rfl
  | cons e es ih => simp only [List.map_cons, find?, name_inj mono, ih]

theorem insert_mapKeys (m : SortedMap κ ν) (k : κ) (v : ν) :
    (m.mapKeys mono).insert (name k) v = (m.insert k v).mapKeys mono := by
  obtain ⟨es, ascending⟩ := m
  simp only [insert, mapKeys, mk.injEq]
  clear ascending
  induction es with
  | nil => rfl
  | cons e es ih =>
    simp only [List.map_cons, place, name_lt_iff mono, name_inj mono, ih]
    split
    · rfl
    · split <;> rfl

end

/-! ## The greatest key -/

omit [DecidableLT κ] [DecidableEq κ] in
theorem maxKey?_eq_some_iff {m : SortedMap κ ν} {top : κ} :
    m.maxKey? = some top ↔ top ∈ m.keys ∧ ∀ k ∈ m.keys, k ≤ top := by
  have last : m.maxKey? = m.keys.getLast? := by simp [maxKey?, keys]
  -- The keys ascend, so none in front of the last one is above it.
  have greatest : ∀ {k}, m.keys.getLast? = some k → ∀ j ∈ m.keys, j ≤ k := by
    intro k ends j member
    have ascending := m.keys_ascending
    obtain ⟨front, shape⟩ := List.getLast?_eq_some_iff.1 ends
    rw [shape] at member ascending
    rcases List.mem_append.1 member with before | same
    · exact Std.le_of_lt ((List.pairwise_append.1 ascending).2.2 j before k (by simp))
    · rw [List.mem_singleton.1 same]; exact Std.le_refl k
  rw [last]
  constructor
  · exact fun ends => ⟨List.mem_of_getLast? ends, greatest ends⟩
  · rintro ⟨member, above⟩
    cases ends : m.keys.getLast? with
    | none => rw [List.getLast?_eq_none_iff.1 ends] at member; cases member
    | some k =>
      rw [Std.le_antisymm (above k (List.mem_of_getLast? ends)) (greatest ends top member)]

end

end SortedMap

/-- The greater of two heights is the least one above both. -/
instance lawfulOrderMaxUInt64 : Std.LawfulOrderMax UInt64 where
  max_eq_or a b := by
    unfold max instMaxUInt64 maxOfLe
    dsimp only
    split <;> simp
  max_le_iff a b c := by
    unfold max instMaxUInt64 maxOfLe
    dsimp only
    split <;> simp only [UInt64.le_iff_toNat_le] at * <;> omega

/-! ## Sets -/

namespace SortedSet

variable {κ : Type} [LT κ] [LE κ] [Std.IsLinearOrder κ] [Std.LawfulOrderLT κ] [DecidableLT κ]
  [DecidableEq κ]

theorem contains_add (s : SortedSet κ) (k k₂ : κ) :
    (SortedSet.add s k).contains k₂ = (decide (k₂ = k) || SortedMap.contains s k₂) := by
  by_cases same : k₂ = k <;> simp [SortedSet.add, SortedMap.contains, SortedMap.get?_insert, same]

omit [DecidableLT κ] in
theorem ext_contains {s t : SortedSet κ}
    (same : ∀ k, SortedMap.contains s k = SortedMap.contains t k) : s = t := by
  apply SortedMap.ext_get?
  intro k
  have here := same k
  cases left : SortedMap.get? s k <;> cases right : SortedMap.get? t k <;>
    simp_all [SortedMap.contains]

/-- An element that is there already is not added again. -/
theorem add_of_contains {s : SortedSet κ} {k : κ} (present : SortedMap.contains s k = true) :
    SortedSet.add s k = s := by
  apply ext_contains
  intro k₂
  rw [contains_add]
  by_cases same : k₂ = k <;> simp [same, present]

theorem contains_foldl_add (ks : List κ) (s : SortedSet κ) (k : κ) :
    (ks.foldl SortedSet.add s).contains k = (decide (k ∈ ks) || SortedMap.contains s k) := by
  induction ks generalizing s with
  | nil => simp
  | cons head rest ih =>
    rw [List.foldl_cons, ih, contains_add]
    by_cases first : k = head <;> simp [first]

theorem contains_ofList (ks : List κ) (k : κ) :
    (SortedSet.ofList ks).contains k = decide (k ∈ ks) := by
  rw [SortedSet.ofList, contains_foldl_add]
  simp [SortedMap.contains]

/-- The elements of a set make the same set. -/
theorem ofList_keys (s : SortedSet κ) : SortedSet.ofList (SortedMap.keys s) = s := by
  apply ext_contains
  intro k
  rw [contains_ofList, SortedMap.contains, Bool.eq_iff_iff, decide_eq_true_eq, SortedMap.mem_keys]

end SortedSet

end BlockGraph
