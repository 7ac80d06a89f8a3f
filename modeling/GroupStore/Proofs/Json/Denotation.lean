import GroupStore.Proofs.Binary64.Rounding
import GroupStore.Proofs.Json.Value

/-!
# What a JSON text denotes

A number in a text denotes the decimal number that is written: without point and exponent it is an
integer, of any size, and with them it becomes the nearest floating point number.  Read so, the text
of a value denotes the value.

* `Json.denoted?` — the value that a text denotes;
* `Json.Numeral.denotes?_ofFloat` — the text of a floating point number denotes it;
* `Json.Sound` — values whose numbers a text can denote;
* `Json.denoted?_object` — the text of such an object denotes it;
* `Json.ofTree?_sound` — whatever is read is such a value.
-/

namespace GroupStore.Json

open TextOrder (bytes)

/-! ### Numbers -/

namespace Numeral

/-- The digits of a literal without the point, as a number. -/
def significand (n : Numeral) : Nat := ofDigits (n.whole ++ n.decimals.getD [])

/-- The exponent of a literal; none is zero. -/
def exponentPower : Option (Bool × List Nat) → Int
  | none => 0
  | some (minus, ds) => if minus then -(ofDigits ds : Int) else ofDigits ds

/-- The power of ten of the last digit. -/
def power (n : Numeral) : Int := exponentPower n.exponent - (n.decimals.getD []).length

/-- The integer of a literal without point and exponent; minus zero is none. -/
def integer? (n : Numeral) : Option Int :=
  if n.isWhole then
    if n.negative then if 0 < n.wholeValue then some (-(n.wholeValue : Int)) else none
    else some n.wholeValue
  else none

/-- What a literal stands for: an integer, or else the nearest floating point number; none if it is
too large for one. -/
def denotes? (n : Numeral) : Option Number :=
  match n.integer? with
  | some value => some (.int value)
  | none =>
    let fraction := Binary64.decimal n.significand n.power
    (Binary64.nearest fraction.1 fraction.2).map fun x => .float ⟨n.negative, x.1, x.2⟩

end Numeral

/-! ### Texts -/

mutual

/-- The value that a tree denotes; fields stay as they are written. -/
def ofTreeExactly? : Tree → Option Json
  | .null => some null
  | .bool b => some (bool b)
  | .number n => n.denotes?.map number
  | .text raw => (readText? raw).map string
  | .array items => (itemsExactly? items).map array
  | .object fields => (fieldsExactly? fields).map object

/-- The values that some items denote. -/
def itemsExactly? : List Tree → Option (List Json)
  | [] => some []
  | item :: items =>
    (ofTreeExactly? item).bind fun value => (itemsExactly? items).map (value :: ·)

/-- The fields that some names and trees denote. -/
def fieldsExactly? : List (List UInt8 × Tree) → Option (List (String × Json))
  | [] => some []
  | (name, value) :: fields =>
    (readText? name).bind fun name => (ofTreeExactly? value).bind fun value =>
      (fieldsExactly? fields).map ((name, value) :: ·)

end

/-- The value that a text denotes; none if it is no JSON text. -/
def denoted? (s : String) : Option Json := (Tree.ofBytes? (bytes s)).bind ofTreeExactly?

/-! ### Literals of numbers -/

namespace Numeral

theorem integer?_ofInt (n : Int) : (ofInt n).integer? = some n := by
  have whole : (ofInt n).wholeValue = n.natAbs := ofDigits_digits n.natAbs
  rw [integer?, if_pos (show (ofInt n).isWhole = true from rfl), whole]
  by_cases negative : n < 0
  · rw [if_pos (show (ofInt n).negative = true from decide_eq_true negative), if_pos (by omega)]
    exact congrArg some (by omega)
  · rw [if_neg (show ¬(ofInt n).negative = true by simp [ofInt, negative])]
    exact congrArg some (by omega)

/-- The value of digits around a point is that of the digits and their power. -/
theorem rational_around (ds : List Nat) (k : Int) :
    let parts := around ds (ds.length + k)
    (ofDigits (parts.1 ++ parts.2) : ℚ) * 10 ^ (-(parts.2.length : Int)) =
      ofDigits ds * 10 ^ k := by
  have zeros (n : Nat) : ofDigits (List.replicate n 0) = 0 := by
    induction n with
    | zero => rfl
    | succ n ih =>
      rw [List.replicate_succ', ofDigits_append, ih]
      rfl
  unfold around
  split
  · rename_i before
    have whole : ofDigits ([0] ++ (List.replicate (-((ds.length : Int) + k)).toNat 0 ++ ds)) =
        ofDigits ds := by
      rw [ofDigits_append, ofDigits_append, zeros]
      simp [ofDigits]
    dsimp only
    rw [whole, List.length_append, List.length_replicate]
    congr 2
    push_cast
    omega
  · rename_i more
    split
    · rename_i after
      dsimp only
      rw [ofDigits_append, ofDigits_append, zeros, List.length_replicate]
      have up : 0 ≤ k := by omega
      have steps : ((ds.length : Int) + k).toNat - ds.length = k.toNat := by omega
      rw [steps, Binary64.zpow_of_nonneg up]
      have last : ofDigits [0] = 0 := rfl
      rw [last, List.length_singleton]
      push_cast [Binary64.cast_tenTo]
      field_simp
      ring
    · rename_i inside
      dsimp only
      rw [List.take_append_drop, List.length_drop]
      congr 2
      omega

theorem exponentPower_ofInt (p : Int) :
    exponentPower (some (decide (p < 0), digits p.natAbs)) = p := by
  simp only [exponentPower, ofDigits_digits]
  by_cases negative : p < 0
  · rw [if_pos (decide_eq_true negative)]
    omega
  · rw [if_neg (by simpa using negative)]
    omega

/-- The literal of digits and their power stands for them. -/
theorem rational_ofDecimal (negative : Bool) {ds : List Nat} (k : Int) (nonempty : ds ≠ []) :
    ((ofDecimal negative ds k).significand : ℚ) * 10 ^ (ofDecimal negative ds k).power =
      ofDigits ds * 10 ^ k := by
  unfold ofDecimal
  dsimp only
  split
  · have value := rational_around ds k
    simp only [significand, power, exponentPower, Option.getD_some, Int.zero_sub]
    exact value
  · have rest : (if ds.drop 1 = [] then none else some (ds.drop 1)).getD [] = ds.drop 1 := by
      split
      · rename_i empty
        rw [empty]
        rfl
      · rfl
    have length : ((ds.drop 1).length : Int) = ds.length - 1 := by
      rw [List.length_drop]
      have positive := List.length_pos_iff.mpr nonempty
      omega
    simp only [significand, power, rest, List.take_append_drop, exponentPower_ofInt, length]
    congr 2
    omega

/-- The text of a floating point number denotes it. -/
theorem denotes?_ofFloat {f : Binary64} (canonical : Binary64.Canonical (f.mantissa, f.exponent)) :
    (ofFloat f).denotes? = some (.float f) := by
  obtain ⟨negative, mantissa, exponent⟩ := f
  have fractional : (ofFloat ⟨negative, mantissa, exponent⟩).integer? = none := by
    unfold integer? isWhole ofFloat ofDecimal
    split
    · rfl
    · dsimp only
      split <;> simp
  have sign : (ofFloat ⟨negative, mantissa, exponent⟩).negative = negative := by
    unfold ofFloat ofDecimal
    split
    · rfl
    · dsimp only
      split <;> rfl
  unfold denotes?
  rw [fractional, sign]
  dsimp only
  by_cases zero : mantissa = 0
  · obtain rfl : exponent = Binary64.minExponent := by
      rcases lt_or_eq_of_le canonical.low with more | least
      · have full : Binary64.fullMantissa ≤ mantissa := canonical.full more
        have positive : 0 < Binary64.fullMantissa := by decide
        omega
      · exact least.symm
    subst zero
    rfl
  · obtain ⟨nonzero, within⟩ := Binary64.shortest_within canonical zero
    have own : ofFloat ⟨negative, mantissa, exponent⟩ =
        ofDecimal negative (digits (Binary64.shortest (mantissa, exponent)).1)
          (Binary64.shortest (mantissa, exponent)).2 := if_neg zero
    have value := rational_ofDecimal negative (Binary64.shortest (mantissa, exponent)).2
      (digits_ne_nil (Binary64.shortest (mantissa, exponent)).1)
    rw [ofDigits_digits, ← own] at value
    obtain ⟨positive, fraction⟩ := Binary64.decimal_eq
      (ofFloat ⟨negative, mantissa, exponent⟩).significand
      (ofFloat ⟨negative, mantissa, exponent⟩).power
    rw [← value, ← fraction] at within
    rw [Binary64.nearest_of_within canonical zero positive within]
    rfl

end Numeral

/-! ### Values -/

/-- A number that a text can denote: any integer, and a floating point number in its one form. -/
def Number.Sound : Number → Prop
  | int _ => True
  | float f => Binary64.Canonical (f.mantissa, f.exponent)

/-- A value whose numbers a text can denote. -/
inductive Sound : Json → Prop where
  | null : Sound .null
  | bool (b : Bool) : Sound (.bool b)
  | number {n : Number} (sound : n.Sound) : Sound (.number n)
  | string (s : String) : Sound (.string s)
  | array {items : List Json} (all : ∀ item ∈ items, Sound item) : Sound (.array items)
  | object {fields : List (String × Json)} (all : ∀ field ∈ fields, Sound field.2) :
      Sound (.object fields)

@[simp] theorem sound_bool (b : Bool) : (Json.bool b).Sound := .bool b

@[simp] theorem sound_int (n : Int) : (Json.int n).Sound := .number (n := .int n) trivial

@[simp] theorem sound_string (s : String) : (Json.string s).Sound := .string s

@[simp] theorem sound_object_nil : (object []).Sound :=
  .object fun _ member => absurd member List.not_mem_nil

@[simp] theorem sound_object_cons {field : String × Json} {fields : List (String × Json)} :
    (object (field :: fields)).Sound ↔ field.2.Sound ∧ (object fields).Sound := by
  constructor
  · rintro (_ | _ | _ | _ | _ | @⟨_, all⟩)
    rw [List.forall_mem_cons] at all
    exact ⟨all.1, .object all.2⟩
  · rintro ⟨first, _ | _ | _ | _ | _ | @⟨_, others⟩⟩
    exact .object (List.forall_mem_cons.mpr ⟨first, others⟩)

theorem denotes?_literal {n : Number} (sound : n.Sound) : (literal n).denotes? = some n := by
  cases n with
  | int n => rw [literal_int, Numeral.denotes?, Numeral.integer?_ofInt]
  | float f => rw [literal_float, Numeral.denotes?_ofFloat sound]

/-- The tree of a value denotes it. -/
theorem Sound.ofTreeExactly?_tree {v : Json} (sound : v.Sound) :
    ofTreeExactly? v.tree = some v := by
  induction sound with
  | null => rfl
  | bool b => rfl
  | number sound => simp only [tree, ofTreeExactly?, denotes?_literal sound, Option.map_some]
  | string s => simp only [tree, ofTreeExactly?, readText?_raw, Option.map_some]
  | @array items all ih =>
    have each : itemsExactly? (trees items) = some items := by
      clear all
      induction items with
      | nil => rfl
      | cons item rest own =>
        rw [List.forall_mem_cons] at ih
        simp only [trees, itemsExactly?, ih.1, own ih.2, Option.bind_some, Option.map_some]
    simp only [tree, ofTreeExactly?, each, Option.map_some]
  | @object fields all ih =>
    have each : fieldsExactly? (fieldTrees fields) = some fields := by
      clear all
      induction fields with
      | nil => rfl
      | cons field rest own =>
        rw [List.forall_mem_cons] at ih
        simp only [fieldTrees, fieldsExactly?, readText?_raw, ih.1, own ih.2, Option.bind_some,
          Option.map_some]
    simp only [tree, ofTreeExactly?, each, Option.map_some]

/-- The text of an object denotes it. -/
theorem denoted?_object {fields : List (String × Json)} (sound : (object fields).Sound) :
    denoted? (object fields).text = some (object fields) := by
  rw [denoted?, ofBytes?_object, Option.bind_some, sound.ofTreeExactly?_tree]

/-! ### What is read -/

/-- A literal that is read is a number that a text can denote. -/
theorem Numeral.value?_sound {n : Numeral} {v : Number} (read : n.value? = some v) : v.Sound := by
  unfold value? at read
  cases integer : n.int? with
  | some value =>
    rw [integer] at read
    cases read
    trivial
  | none =>
    rw [integer] at read
    obtain ⟨x, magnitude, rfl⟩ := Option.map_eq_some_iff.mp read
    show Binary64.Canonical x
    unfold magnitude? at magnitude
    dsimp only at magnitude
    split at magnitude
    · exact Binary64.scaled_canonical magnitude
    · split at magnitude
      · exact Binary64.scaled_canonical magnitude
      · split at magnitude
        · cases magnitude
        · cases magnitude
          have zero : Binary64.nearest 0 1 = some (0, Binary64.minExponent) := rfl
          exact (Binary64.nearest_canonical Nat.one_pos zero).1

/-- What a successful pass over a list has found comes from one of its elements. -/
theorem exists_of_mapM {α β : Type} {f : α → Option β} {l : List α} {l' : List β}
    (each : l.mapM f = some l') : ∀ b ∈ l', ∃ a ∈ l, f a = some b := by
  induction l generalizing l' with
  | nil =>
    cases each
    exact fun b member => absurd member List.not_mem_nil
  | cons a rest ih =>
    rw [List.mapM_cons] at each
    obtain ⟨b, first, each⟩ := Option.bind_eq_some_iff.mp each
    obtain ⟨bs, others, each⟩ := Option.bind_eq_some_iff.mp each
    cases each
    intro c member
    rcases List.mem_cons.mp member with rfl | later
    · exact ⟨a, List.mem_cons_self, first⟩
    · obtain ⟨a', inside, own⟩ := ih others c later
      exact ⟨a', List.mem_cons_of_mem _ inside, own⟩

/-- A value without parts, as it is read. -/
inductive Scalar : Json → Prop where
  | null : Scalar .null
  | bool (b : Bool) : Scalar (.bool b)
  | number {literal : Numeral} {n : Number} (read : literal.value? = some n) : Scalar (.number n)
  | string (s : String) : Scalar (.string s)

theorem Scalar.sound {v : Json} (scalar : v.Scalar) : v.Sound := by
  cases scalar with
  | null => exact .null
  | bool b => exact .bool b
  | number read => exact .number (Numeral.value?_sound read)
  | string s => exact .string s

/-- A tree that is read is a value without parts, or an array, or an object. -/
theorem ofTree?_cases {d : Nat} {t : Tree} {v : Json} (read : ofTree? d t = some v) :
    v.Scalar ∨
    (∃ d' values, ∃ items : List Tree, d = d' + 1 ∧ items.mapM (ofTree? d') = some values ∧
      v = .array values) ∨
    ∃ d' values, ∃ trees : List Tree, d = d' + 1 ∧ v = .object (collect values) ∧
      ∀ field ∈ values, ∃ entry ∈ trees, ofTree? d' entry = some field.2 := by
  cases t with
  | null =>
    obtain rfl : Json.null = v := by cases d <;> exact Option.some.inj read
    exact .inl .null
  | bool b =>
    obtain rfl : Json.bool b = v := by cases d <;> exact Option.some.inj read
    exact .inl (.bool b)
  | number n =>
    have own : n.value?.map Json.number = some v := by cases d <;> exact read
    obtain ⟨x, value, rfl⟩ := Option.map_eq_some_iff.mp own
    exact .inl (.number value)
  | text raw =>
    have own : (readText? raw).map Json.string = some v := by cases d <;> exact read
    obtain ⟨s, -, rfl⟩ := Option.map_eq_some_iff.mp own
    exact .inl (.string s)
  | array items =>
    cases d with
    | zero => cases read
    | succ d =>
      obtain ⟨values, each, rfl⟩ := Option.map_eq_some_iff.mp read
      exact .inr (.inl ⟨d, values, items, rfl, each, rfl⟩)
  | object fields =>
    cases d with
    | zero => cases read
    | succ d =>
      obtain ⟨values, each, rfl⟩ := Option.map_eq_some_iff.mp read
      refine .inr (.inr ⟨d, values, fields.map Prod.snd, rfl, rfl, fun field member => ?_⟩)
      obtain ⟨entry, inside, own⟩ := exists_of_mapM each field member
      obtain ⟨name, -, own⟩ := Option.bind_eq_some_iff.mp own
      obtain ⟨value, read', own⟩ := Option.bind_eq_some_iff.mp own
      cases own
      exact ⟨entry.2, List.mem_map_of_mem inside, read'⟩

/-- A value that is read has only numbers that a text can denote. -/
theorem ofTree?_sound {d : Nat} {t : Tree} {v : Json} (read : ofTree? d t = some v) : v.Sound := by
  induction d using Nat.strong_induction_on generalizing t v with
  | _ d ih =>
    rcases ofTree?_cases read with
      scalar | ⟨d', values, items, rfl, each, rfl⟩ | ⟨d', values, trees, rfl, rfl, each⟩
    · exact scalar.sound
    · refine .array fun item member => ?_
      obtain ⟨t, -, own⟩ := exists_of_mapM each item member
      exact ih d' (Nat.lt_succ_self d') own
    · refine .object fun field member => ?_
      obtain ⟨t, -, own⟩ := each field (Sorted.mem_of_mem_ofPairs member)
      exact ih d' (Nat.lt_succ_self d') own

end GroupStore.Json
