import GroupStore.Sorted
import GroupStore.Value

/-!
# Laws of the finite maps

Looking up after putting and after dropping needs no order; that keys ascend is what `put`, `drop`
and filtering keep, and what makes a lookup in a filtered map the filtered lookup.

* `get?_put`, `get?_drop`, `get?_filter` — lookups after each operation;
* `Ascending.put`, `Ascending.filter` — the invariant is kept;
* `ofPairs_eq_self` — a map that ascends is the map of its own pairs;
* the order of values is lawful, hence that of primary keys.
-/

namespace GroupStore.Sorted

open Std

variable {κ : Type u} {ν : Type v}

/-! ### Lookups -/

section Lookup

variable [DecidableEq κ]

@[simp]
theorem get?_nil (k : κ) : get? k ([] : List (κ × ν)) = none := rfl

theorem get?_cons (k : κ) (entry : κ × ν) (m : List (κ × ν)) :
    get? k (entry :: m) = if k = entry.1 then some entry.2 else get? k m := rfl

theorem mem_of_get? {k : κ} {v : ν} {m : List (κ × ν)} (h : get? k m = some v) : (k, v) ∈ m := by
  induction m with
  | nil => simp at h
  | cons entry rest ih =>
    rw [get?_cons] at h
    split at h
    · rename_i keyEq
      cases h
      simp [keyEq]
    · exact List.mem_cons_of_mem _ (ih h)

theorem get?_eq_none_iff {k : κ} {m : List (κ × ν)} : get? k m = none ↔ ∀ v, (k, v) ∉ m := by
  induction m with
  | nil => simp
  | cons entry rest ih =>
    rw [get?_cons]
    by_cases keyEq : k = entry.1
    · simp only [keyEq, if_true, reduceCtorEq, false_iff]
      exact fun absent => absent entry.2 List.mem_cons_self
    · rw [if_neg keyEq, ih]
      refine forall_congr' fun v => ?_
      rw [List.mem_cons, not_or]
      exact ⟨fun h => ⟨fun e => keyEq (congrArg Prod.fst e), h⟩, fun h => h.2⟩

/-- Where no key occurs twice, the lookup finds every entry. -/
theorem get?_of_mem {k : κ} {v : ν} {m : List (κ × ν)} (distinct : (m.map Prod.fst).Nodup)
    (h : (k, v) ∈ m) : get? k m = some v := by
  induction m with
  | nil => simp at h
  | cons entry rest ih =>
    rw [List.map_cons, List.nodup_cons] at distinct
    rw [get?_cons]
    rcases List.mem_cons.mp h with entryEq | later
    · simp [← entryEq]
    · have other : k ≠ entry.1 := by
        intro keyEq
        exact distinct.1 (keyEq ▸ List.mem_map_of_mem later)
      rw [if_neg other]
      exact ih distinct.2 later

theorem get?_eq_some_iff {k : κ} {v : ν} {m : List (κ × ν)} (distinct : (m.map Prod.fst).Nodup) :
    get? k m = some v ↔ (k, v) ∈ m :=
  ⟨mem_of_get?, get?_of_mem distinct⟩

theorem get?_append (k : κ) (m₁ m₂ : List (κ × ν)) :
    get? k (m₁ ++ m₂) = (get? k m₁).or (get? k m₂) := by
  induction m₁ with
  | nil => simp
  | cons entry rest ih =>
    rw [List.cons_append, get?_cons, get?_cons, ih]
    by_cases keyEq : k = entry.1
    · simp [keyEq]
    · simp [keyEq]

theorem get?_drop (k k' : κ) (m : List (κ × ν)) :
    get? k' (drop k m) = if k' = k then none else get? k' m := by
  unfold drop
  induction m with
  | nil => simp
  | cons entry rest ih =>
    by_cases gone : entry.1 = k
    · rw [List.filter_cons_of_neg (by simp [gone]), ih, get?_cons]
      by_cases keyEq : k' = k
      · simp [keyEq]
      · simp [keyEq, gone]
    · rw [List.filter_cons_of_pos (by simp [gone]), get?_cons, ih, get?_cons]
      by_cases keyEq : k' = entry.1
      · simp [keyEq, gone]
      · simp [keyEq]

/-- Where no key occurs twice, looking up in a filtered map is filtering what is looked up. -/
theorem get?_filter {m : List (κ × ν)} (distinct : (m.map Prod.fst).Nodup) (p : κ × ν → Bool)
    (k : κ) : get? k (m.filter p) = (get? k m).filter fun v => p (k, v) := by
  induction m with
  | nil => rfl
  | cons entry rest ih =>
    rw [List.map_cons, List.nodup_cons] at distinct
    rw [get?_cons k entry rest]
    by_cases keyEq : k = entry.1
    · subst keyEq
      rw [if_pos rfl, Option.filter_some]
      by_cases kept : p entry = true
      · rw [List.filter_cons_of_pos kept, get?_cons, if_pos rfl, if_pos kept]
      · have absent : get? entry.1 rest = none := by
          rw [get?_eq_none_iff]
          exact fun v found => distinct.1 (List.mem_map.mpr ⟨_, found, rfl⟩)
        rw [List.filter_cons_of_neg kept, ih distinct.2, absent, if_neg kept, Option.filter_none]
    · rw [if_neg keyEq, ← ih distinct.2]
      by_cases kept : p entry = true
      · rw [List.filter_cons_of_pos kept, get?_cons, if_neg keyEq]
      · rw [List.filter_cons_of_neg kept]

/-- Where no key occurs twice, the entries of a key are the one that is looked up. -/
theorem filter_key {m : List (κ × ν)} (distinct : (m.map Prod.fst).Nodup) (key : κ)
    (p : ν → Bool) :
    (m.filter fun e => decide (e.1 = key) && p e.2) =
      ((get? key m).filter p).toList.map fun v => (key, v) := by
  induction m with
  | nil => rfl
  | cons e rest ih =>
    rw [List.map_cons, List.nodup_cons] at distinct
    rw [get?_cons]
    by_cases keyIs : key = e.1
    · have absent : get? key rest = none := by
        rw [get?_eq_none_iff]
        intro v found
        exact distinct.1 (keyIs ▸ List.mem_map_of_mem found)
      have later := ih distinct.2
      rw [absent] at later
      rw [if_pos keyIs, Option.filter_some]
      by_cases kept : p e.2 = true
      · rw [List.filter_cons_of_pos (by simp [keyIs, kept]), later, if_pos kept]
        simp [keyIs]
      · rw [List.filter_cons_of_neg (by simp [kept]), later, if_neg kept]
        rfl
    · rw [List.filter_cons_of_neg (by simp [Ne.symm keyIs]), if_neg keyIs, ih distinct.2]

end Lookup

/-! ### Putting -/

section Put

variable [Ord κ]

theorem get?_put [DecidableEq κ] [LawfulEqOrd κ] (k k' : κ) (v : ν) (m : List (κ × ν)) :
    get? k' (put k v m) = if k' = k then some v else get? k' m := by
  induction m with
  | nil => simp [put, get?_cons]
  | cons entry rest ih =>
    unfold put
    cases order : compare k entry.1 with
    | lt => simp only [get?_cons]
    | eq =>
      have keyEq : k = entry.1 := LawfulEqOrd.eq_of_compare order
      simp only [get?_cons, ← keyEq]
      by_cases found : k' = k <;> simp [found]
    | gt =>
      simp only [get?_cons, ih]
      by_cases keyEq : k' = entry.1
      · have other : k' ≠ k := by
          intro e
          rw [← e, keyEq, compare_self] at order
          cases order
        rw [if_pos keyEq, if_neg other, if_pos keyEq]
      · rw [if_neg keyEq, if_neg keyEq]

theorem mem_put {k : κ} {v : ν} {m : List (κ × ν)} {entry : κ × ν} (h : entry ∈ put k v m) :
    entry = (k, v) ∨ entry ∈ m := by
  induction m with
  | nil => exact .inl (by simpa [put] using h)
  | cons head rest ih =>
    unfold put at h
    split at h
    · simpa using h
    · rcases List.mem_cons.mp h with new | old
      · exact .inl new
      · exact .inr (List.mem_cons_of_mem _ old)
    · rcases List.mem_cons.mp h with first | later
      · exact .inr (by simp [first])
      · rcases ih later with new | old
        · exact .inl new
        · exact .inr (List.mem_cons_of_mem _ old)

theorem Ascending.filter {m : List (κ × ν)} (h : Ascending m) (p : κ × ν → Bool) :
    Ascending (m.filter p) :=
  List.Pairwise.filter p h

theorem Ascending.put [TransOrd κ] [LawfulEqOrd κ] {m : List (κ × ν)} (h : Ascending m) (k : κ)
    (v : ν) :
    Ascending (put k v m) := by
  induction m with
  | nil => simp [Sorted.put, Ascending]
  | cons entry rest ih =>
    have ⟨above, tail⟩ := List.pairwise_cons.mp h
    unfold Sorted.put
    cases order : compare k entry.1 with
    | lt =>
      refine List.pairwise_cons.mpr ⟨fun later found => ?_, h⟩
      rcases List.mem_cons.mp found with first | deeper
      · rw [first]
        exact order
      · exact TransCmp.lt_trans order (above later deeper)
    | eq =>
      have keyEq : k = entry.1 := LawfulEqOrd.eq_of_compare order
      refine List.pairwise_cons.mpr ⟨fun later found => ?_, tail⟩
      rw [keyEq]
      exact above later found
    | gt =>
      refine List.pairwise_cons.mpr ⟨fun later found => ?_, ih tail⟩
      rcases mem_put found with new | old
      · rw [new]
        exact OrientedCmp.gt_iff_lt.mp order
      · exact above later old

/-- No key of a map occurs twice. -/
theorem Ascending.nodup [ReflOrd κ] {m : List (κ × ν)} (h : Ascending m) :
    (m.map Prod.fst).Nodup := by
  rw [List.Nodup, List.pairwise_map]
  refine List.Pairwise.imp (fun {a b} below keyEq => ?_) h
  rw [keyEq, compare_self] at below
  cases below

/-- Two ascending lists with the same members are one list. -/
theorem eq_of_ascending_keys [OrientedOrd κ] {l₁ l₂ : List κ}
    (h₁ : l₁.Pairwise fun a b => compare a b = .lt) (h₂ : l₂.Pairwise fun a b => compare a b = .lt)
    (memberIff : ∀ k, k ∈ l₁ ↔ k ∈ l₂) : l₁ = l₂ := by
  have nodup : ∀ {l : List κ}, (l.Pairwise fun a b => compare a b = .lt) → l.Nodup := fun ordered =>
    ordered.imp fun {a b} below equal => by
      rw [equal, compare_self] at below
      cases below
  have perm := (List.perm_ext_iff_of_nodup (nodup h₁) (nodup h₂)).mpr memberIff
  refine perm.eq_of_pairwise (fun a b _ _ below above => ?_) h₁ h₂
  have reversed : compare a b = .gt := OrientedCmp.gt_iff_lt.mpr above
  rw [below] at reversed
  cases reversed

/-- A key above all others is put at the end. -/
theorem put_of_above [OrientedOrd κ] {m : List (κ × ν)} {k : κ} (v : ν)
    (h : ∀ entry ∈ m, compare entry.1 k = .lt) :
    Sorted.put k v m = m ++ [(k, v)] := by
  induction m with
  | nil => rfl
  | cons entry rest ih =>
    have above : compare k entry.1 = .gt := OrientedCmp.gt_iff_lt.mpr (h entry List.mem_cons_self)
    simp only [Sorted.put, above, List.cons_append]
    rw [ih fun later found => h later (List.mem_cons_of_mem _ found)]

theorem foldl_put_eq_append [OrientedOrd κ] {m rest : List (κ × ν)} (h : Ascending (m ++ rest)) :
    rest.foldl (fun m entry => Sorted.put entry.1 entry.2 m) m = m ++ rest := by
  induction rest generalizing m with
  | nil => simp
  | cons entry rest ih =>
    have below : ∀ e ∈ m, compare e.1 entry.1 = .lt := fun e found =>
      (List.pairwise_append.mp h).2.2 e found entry List.mem_cons_self
    rw [List.foldl_cons, put_of_above _ below, ih (by simpa using h)]
    simp

theorem ascending_ofPairs [TransOrd κ] [LawfulEqOrd κ] (pairs : List (κ × ν)) :
    Ascending (ofPairs pairs) := by
  unfold ofPairs
  suffices general : ∀ m : List (κ × ν), Ascending m →
      Ascending (pairs.foldl (fun m entry => Sorted.put entry.1 entry.2 m) m) from
    general [] List.Pairwise.nil
  induction pairs with
  | nil => exact fun m ordered => ordered
  | cons entry rest ih => exact fun m ordered => ih _ (ordered.put entry.1 entry.2)

/-- Reading the pairs of a map gives the map again. -/
theorem ofPairs_eq_self [OrientedOrd κ] {m : List (κ × ν)} (h : Ascending m) : ofPairs m = m := by
  unfold ofPairs
  rw [foldl_put_eq_append (by simpa using h)]
  simp

/-- Two maps with the same entries are one map. -/
theorem eq_of_perm [OrientedOrd κ] {m₁ m₂ : List (κ × ν)} (h₁ : Ascending m₁) (h₂ : Ascending m₂)
    (perm : m₁.Perm m₂) : m₁ = m₂ := by
  refine perm.eq_of_pairwise (fun a b _ _ below above => ?_) h₁ h₂
  have reversed : compare a.1 b.1 = .gt := OrientedCmp.gt_iff_lt.mpr above
  rw [below] at reversed
  cases reversed

end Put

theorem compare_append_left {α : Type} [Ord α] [ReflOrd α] (front a b : List α) :
    compare (front ++ a) (front ++ b) = compare a b := by
  induction front with
  | nil => rfl
  | cons x rest ih => simp [ih]

/-! ### Maps of pairs -/

section OfPairs

variable [Ord κ]

/-- The entries of the map of some pairs are among the pairs. -/
theorem mem_of_mem_ofPairs {pairs : List (κ × ν)} {entry : κ × ν} (h : entry ∈ ofPairs pairs) :
    entry ∈ pairs := by
  have general : ∀ m : List (κ × ν),
      entry ∈ pairs.foldl (fun m entry => Sorted.put entry.1 entry.2 m) m →
        entry ∈ m ∨ entry ∈ pairs := by
    clear h
    induction pairs with
    | nil => exact fun m member => .inl member
    | cons head rest ih =>
      intro m member
      rcases ih _ member with before | later
      · rcases mem_put before with new | old
        · exact .inr (List.mem_cons.mpr (.inl new))
        · exact .inl old
      · exact .inr (List.mem_cons_of_mem _ later)
  exact (general [] h).resolve_left List.not_mem_nil

/-- Where no key occurs twice, the map of some pairs has the same entries. -/
theorem get?_ofPairs [DecidableEq κ] [LawfulEqOrd κ] {pairs : List (κ × ν)}
    (distinct : (pairs.map Prod.fst).Nodup) (k : κ) : get? k (ofPairs pairs) = get? k pairs := by
  unfold ofPairs
  suffices general : ∀ m : List (κ × ν),
      get? k (pairs.foldl (fun m entry => Sorted.put entry.1 entry.2 m) m) =
        (get? k pairs).or (get? k m) by
    simpa using general []
  intro m
  induction pairs generalizing m with
  | nil => simp
  | cons entry rest ih =>
    rw [List.map_cons, List.nodup_cons] at distinct
    rw [List.foldl_cons, ih distinct.2, get?_put, get?_cons]
    by_cases keyEq : k = entry.1
    · have absent : get? k rest = none := by
        rw [get?_eq_none_iff]
        intro v found
        exact distinct.1 (keyEq ▸ List.mem_map_of_mem found)
      simp [keyEq ▸ absent, keyEq]
    · simp [keyEq]

/-- The keys of the map of some pairs are those of the pairs. -/
theorem mem_keys_ofPairs [DecidableEq κ] [LawfulEqOrd κ] {pairs : List (κ × ν)} {k : κ} :
    k ∈ (ofPairs pairs).map Prod.fst ↔ k ∈ pairs.map Prod.fst := by
  have keys (m : List (κ × ν)) : k ∉ m.map Prod.fst ↔ get? k m = none := by
    rw [get?_eq_none_iff]
    refine ⟨fun absent v found => absent (List.mem_map_of_mem found), fun missing found => ?_⟩
    obtain ⟨entry, member, rfl⟩ := List.mem_map.mp found
    exact missing entry.2 member
  have general (m : List (κ × ν)) :
      get? k (pairs.foldl (fun m entry => Sorted.put entry.1 entry.2 m) m) = none ↔
        k ∉ pairs.map Prod.fst ∧ get? k m = none := by
    induction pairs generalizing m with
    | nil => simp
    | cons entry rest ih =>
      rw [List.foldl_cons, ih, get?_put, List.map_cons, List.mem_cons, not_or]
      by_cases keyEq : k = entry.1
      · simp [keyEq]
      · simp [keyEq]
  rw [← Decidable.not_iff_not, keys, ofPairs, general]
  simp

end OfPairs

end GroupStore.Sorted

/-! ### The order of values -/

namespace GroupStore

open Std

namespace Value

theorem compare_text (s t : String) : compare (text s) (text t) = compare s t := rfl

instance : OrientedOrd Value where
  eq_swap {a b} := by
    cases a <;> cases b
    case text.text s t => exact OrientedOrd.eq_swap (α := String)
    case blob.blob a b => exact OrientedOrd.eq_swap (α := List UInt8)
    case boolean.boolean a b => exact OrientedOrd.eq_swap (α := Bool)
    all_goals rfl

instance : TransOrd Value where
  isLE_trans {a b c} hab hbc := by
    cases a <;> cases b <;> cases c
    case text.text.text => exact TransOrd.isLE_trans (α := String) hab hbc
    case blob.blob.blob => exact TransOrd.isLE_trans (α := List UInt8) hab hbc
    case boolean.boolean.boolean => exact TransOrd.isLE_trans (α := Bool) hab hbc
    all_goals first
      | rfl
      | exact absurd hab Bool.false_ne_true
      | exact absurd hbc Bool.false_ne_true

instance : LawfulEqOrd Value where
  eq_of_compare {a b} h := by
    cases a <;> cases b
    case text.text => exact congrArg text (LawfulEqOrd.eq_of_compare h)
    case blob.blob a b =>
      have toListEq : a.data.toList = b.data.toList := LawfulEqOrd.eq_of_compare h
      exact congrArg blob (ByteArray.ext (Array.ext' toListEq))
    case boolean.boolean => exact congrArg boolean (LawfulEqOrd.eq_of_compare h)
    all_goals cases h

end Value

end GroupStore
