import GroupStore.Proofs.Json.Denotation

/-!
# What is read is held as a program holds it

Whatever spelling a text has, what it is read as has its integers in range, its fields in ascending
order and each name once, and it is no deeper than the reader allows.

* `Json.FloatFree` — values without floating point numbers;
* `Json.ofTree?_exact` — what is read of any tree.
-/

namespace GroupStore.Json

/-- A value without floating point numbers. -/
inductive FloatFree : Json → Prop where
  | null : FloatFree .null
  | bool (b : Bool) : FloatFree (.bool b)
  | int (n : Int) : FloatFree (.number (.int n))
  | string (s : String) : FloatFree (.string s)
  | array {items : List Json} (all : ∀ item ∈ items, FloatFree item) : FloatFree (.array items)
  | object {fields : List (String × Json)} (all : ∀ field ∈ fields, FloatFree field.2) :
      FloatFree (.object fields)

theorem Exact.floatFree {v : Json} (exact' : v.Exact) : v.FloatFree := by
  induction exact' with
  | null => exact .null
  | bool b => exact .bool b
  | int low high => exact .int _
  | string s => exact .string s
  | array all ih => exact .array ih
  | object ascending all ih => exact .object ih

/-- A literal that is read as an integer is in range. -/
theorem Numeral.value?_int {literal : Numeral} {n : Int} (read : literal.value? = some (.int n)) :
    -(maxNegative : Int) ≤ n ∧ n ≤ maxWord := by
  unfold value? at read
  cases integer : literal.int? with
  | none =>
    rw [integer] at read
    obtain ⟨x, -, other⟩ := Option.map_eq_some_iff.mp read
    cases other
  | some value =>
    rw [integer] at read
    cases read
    unfold int? at integer
    split at integer
    · split at integer
      · split at integer
        · rename_i small
          cases integer
          omega
        · cases integer
      · split at integer
        · rename_i small
          cases integer
          omega
        · cases integer
    · cases integer

/-- A value without parts is held as it is read. -/
theorem Scalar.exact {v : Json} (scalar : v.Scalar) (free : v.FloatFree) :
    v.Exact ∧ v.depth = 0 := by
  cases scalar with
  | null => exact ⟨.null, rfl⟩
  | bool b => exact ⟨.bool b, rfl⟩
  | number read =>
    cases free
    obtain ⟨low, high⟩ := Numeral.value?_int read
    exact ⟨.int low high, rfl⟩
  | string s => exact ⟨.string s, rfl⟩

/-- What is read without floating point numbers is held as a program holds it, and it is no deeper
than the reader allows. -/
theorem ofTree?_exact {d : Nat} {t : Tree} {v : Json} (read : ofTree? d t = some v)
    (free : v.FloatFree) : v.Exact ∧ v.depth ≤ d := by
  induction d using Nat.strong_induction_on generalizing t v with
  | _ d ih =>
    rcases ofTree?_cases read with
      scalar | ⟨d', values, items, rfl, each, rfl⟩ | ⟨d', values, trees, rfl, rfl, each⟩
    · obtain ⟨exact', flat⟩ := scalar.exact free
      exact ⟨exact', by omega⟩
    · cases free with
      | array free =>
        have parts : ∀ item ∈ values, item.Exact ∧ item.depth ≤ d' := by
          intro item member
          obtain ⟨t, -, own⟩ := exists_of_mapM each item member
          exact ih d' (Nat.lt_succ_self d') own (free item member)
        refine ⟨.array fun item member => (parts item member).1, ?_⟩
        rw [depth, Nat.add_le_add_iff_right, depthOfItems_le_iff]
        exact fun item member => (parts item member).2
    · cases free with
      | object free =>
        have parts : ∀ field ∈ collect values, field.2.Exact ∧ field.2.depth ≤ d' := by
          intro field member
          obtain ⟨t, -, own⟩ := each field (Sorted.mem_of_mem_ofPairs member)
          exact ih d' (Nat.lt_succ_self d') own (free field member)
        refine ⟨.object (Sorted.ascending_ofPairs values) fun field member =>
          (parts field member).1,
          ?_⟩
        rw [depth, Nat.add_le_add_iff_right, depthOfFields_le_iff]
        exact fun field member => (parts field member).2

end GroupStore.Json
