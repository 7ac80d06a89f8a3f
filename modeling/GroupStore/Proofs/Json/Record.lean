import Mathlib.Data.List.Perm.Basic
import GroupStore.Json.Record

/-!
# Records in objects

An object is read as a record if each of its fields has a name and no declared name stands twice.
A declared field then has the value that its name was given, if it was given one.  Neither the
order of the fields nor fields of other names make a difference.

* `Json.Record.valuesOf` — the values that the fields of an object give to a name;
* `Json.Record.slots?_object_iff` — when an object is read as a record, and as which;
* `Json.Record.Scattered` — some fields in any order, among fields of other names;
* `Json.Record.slots?_of_scattered` — they are read as the same record.
-/

namespace GroupStore.Json.Record

variable {names : List String} {fields known : List (List UInt8 × Tree)}

/-- The values that some fields give to a name, in order. -/
def valuesOf (name : String) (fields : List (List UInt8 × Tree)) : List Tree :=
  fields.filterMap fun field => if readText? field.1 = some name then some field.2 else none

/-- Every field has a name. -/
def Legible (fields : List (List UInt8 × Tree)) : Prop :=
  ∀ field ∈ fields, ∃ name, readText? field.1 = some name

theorem valuesOf_cons (name : String) (raw : List UInt8) (value : Tree)
    (rest : List (List UInt8 × Tree)) : valuesOf name ((raw, value) :: rest) =
      (if readText? raw = some name then [value] else []) ++ valuesOf name rest := by
  unfold valuesOf
  rw [List.filterMap_cons]
  by_cases own : readText? raw = some name <;> simp [own]

theorem valuesOf_append (name : String) (front rest : List (List UInt8 × Tree)) :
    valuesOf name (front ++ rest) = valuesOf name front ++ valuesOf name rest :=
  List.filterMap_append

/-! ### Reading a record -/

/-- A field of a record with one more value. -/
def given (name : String) (value : Tree) (slot : String × Option Tree) : String × Option Tree :=
  if slot.1 = name then (slot.1, some value) else slot

section Fill

variable {slots filled : List (String × Option Tree)} {name : String} {value : Tree}

theorem given_fst (slot : String × Option Tree) : (given name value slot).1 = slot.1 := by
  unfold given
  split <;> rfl

/-- A value is taken if its field has none, and it is given to no other field. -/
theorem fill_eq_some_iff (distinct : (slots.map Prod.fst).Nodup) :
    fill name value slots = some filled ↔
      (∀ slot ∈ slots, slot.1 = name → slot.2 = none) ∧ filled = slots.map (given name value) := by
  induction slots generalizing filled with
  | nil => simp [fill, eq_comm]
  | cons slot rest ih =>
    obtain ⟨own, held⟩ := slot
    rw [List.map_cons, List.nodup_cons] at distinct
    rw [List.forall_mem_cons, List.map_cons]
    by_cases nameEq : own = name
    · subst nameEq
      -- No other field has this name.
      have others : ∀ slot ∈ rest, slot.1 ≠ own := by
        intro slot member nameEq
        exact distinct.1 (List.mem_map.mpr ⟨slot, member, nameEq⟩)
      have untouched : rest.map (given own value) = rest := by
        have each : ∀ slot ∈ rest, given own value slot = id slot :=
          fun slot member => if_neg (others slot member)
        rw [List.map_congr_left each, List.map_id]
      cases held with
      | some other =>
        have refused : fill own value ((own, some other) :: rest) = none := if_pos rfl
        simp [refused]
      | none =>
        have taken : fill own value ((own, none) :: rest) = some ((own, some value) :: rest) :=
          if_pos rfl
        have free : ∀ slot ∈ rest, slot.1 = own → slot.2 = none :=
          fun slot member nameEq => absurd nameEq (others slot member)
        rw [taken, untouched, given, if_pos rfl, Option.some.injEq]
        simp only [true_implies, true_and]
        exact ⟨fun filledEq => ⟨free, filledEq.symm⟩, fun both => both.2.symm⟩
    · have passed : fill name value ((own, held) :: rest) =
          (fill name value rest).map ((own, held) :: ·) := if_neg nameEq
      rw [passed, Option.map_eq_some_iff, given, if_neg nameEq]
      simp only [ih distinct.2, nameEq, false_implies, true_and]
      constructor
      · rintro ⟨later, ⟨free, rfl⟩, rfl⟩
        exact ⟨free, rfl⟩
      · rintro ⟨free, rfl⟩
        exact ⟨_, ⟨free, rfl⟩, rfl⟩

/-- The values that a field has been given before and the fields give to it. -/
def gathered (fields : List (List UInt8 × Tree)) (slot : String × Option Tree) : List Tree :=
  slot.2.toList ++ valuesOf slot.1 fields

/-- One more field is gathered by the field of its name. -/
theorem gathered_cons {raw : List UInt8} (named : readText? raw = some name)
    {slot : String × Option Tree} (free : slot.1 = name → slot.2 = none)
    (rest : List (List UInt8 × Tree)) :
    gathered ((raw, value) :: rest) slot = gathered rest (given name value slot) := by
  unfold gathered
  rw [given_fst, valuesOf_cons, named, given]
  by_cases own : slot.1 = name
  · rw [if_pos own, free own, own, if_pos rfl]
    rfl
  · rw [if_neg own, if_neg fun nameIs => own (Option.some.inj nameIs).symm, List.nil_append]

/-- A field that gathers one value at most has none before one more is given to it. -/
theorem free_of_short {raw : List UInt8} (named : readText? raw = some name)
    {slot : String × Option Tree} {rest : List (List UInt8 × Tree)}
    (short : (gathered ((raw, value) :: rest) slot).length ≤ 1) (own : slot.1 = name) :
    slot.2 = none := by
  rw [gathered, valuesOf_cons, named, own, if_pos rfl] at short
  cases held : slot.2 with
  | none => rfl
  | some other =>
    rw [held] at short
    simp at short

/-- Without fields, each field of the record keeps what it has. -/
theorem keeps_of_no_fields (slots : List (String × Option Tree)) :
    (∀ slot ∈ slots, (gathered [] slot).length ≤ 1) ∧
      (slots.map fun slot => (slot.1, (gathered [] slot).head?)) = slots := by
  have whole (slot : String × Option Tree) : gathered [] slot = slot.2.toList := by
    simp [gathered, valuesOf]
  have each (slot : String × Option Tree) : (slot.1, slot.2.toList.head?) = slot := by
    obtain ⟨own, held⟩ := slot
    cases held <;> rfl
  refine ⟨fun slot _ => ?_, ?_⟩
  · rw [whole]
    cases slot.2 <;> simp
  · simp only [whole, each, List.map_id_fun', id_eq]

/-- The fields of an object are read if they have names and no declared one is given two values. -/
theorem ofFields_eq_some_iff (distinct : (slots.map Prod.fst).Nodup)
    (fields : List (List UInt8 × Tree)) :
    ofFields slots fields = some filled ↔ Legible fields ∧
      (∀ slot ∈ slots, (gathered fields slot).length ≤ 1) ∧
        filled = slots.map fun slot => (slot.1, (gathered fields slot).head?) := by
  induction fields generalizing slots with
  | nil =>
    obtain ⟨short, slotsEq⟩ := keeps_of_no_fields slots
    have legible : Legible [] := fun field member => absurd member List.not_mem_nil
    rw [ofFields, slotsEq, Option.some.injEq]
    exact ⟨fun done => ⟨legible, short, done.symm⟩, fun all => all.2.2.symm⟩
  | cons field rest ih =>
    obtain ⟨raw, value⟩ := field
    rw [ofFields, Legible, List.forall_mem_cons]
    cases named : readText? raw with
    | none => simp
    | some name =>
      rw [Option.bind_some, Option.bind_eq_some_iff]
      simp only [fill_eq_some_iff distinct]
      by_cases free : ∀ slot ∈ slots, slot.1 = name → slot.2 = none
      · have distinct' : ((slots.map (given name value)).map Prod.fst).Nodup := by
          rw [List.map_map]
          exact (List.map_congr_left fun slot _ => given_fst slot).symm ▸ distinct
        have more {slot : String × Option Tree} (member : slot ∈ slots) :
            gathered rest (given name value slot) = gathered ((raw, value) :: rest) slot :=
          (gathered_cons named (free slot member) rest).symm
        have short : (∀ slot ∈ slots.map (given name value), (gathered rest slot).length ≤ 1) ↔
            ∀ slot ∈ slots, (gathered ((raw, value) :: rest) slot).length ≤ 1 := by
          rw [List.forall_mem_map]
          exact forall₂_congr fun slot member => by rw [more member]
        have slotsEq : ((slots.map (given name value)).map fun slot =>
              (slot.1, (gathered rest slot).head?)) =
            slots.map fun slot => (slot.1, (gathered ((raw, value) :: rest) slot).head?) := by
          rw [List.map_map]
          refine List.map_congr_left fun slot member => ?_
          rw [Function.comp_apply, given_fst, more member]
        have later := ih distinct'
        rw [short, slotsEq] at later
        constructor
        · rintro ⟨slots', ⟨-, rfl⟩, read⟩
          obtain ⟨legible, all⟩ := later.mp read
          exact ⟨⟨⟨name, rfl⟩, legible⟩, all⟩
        · rintro ⟨⟨-, legible⟩, all⟩
          exact ⟨_, ⟨free, rfl⟩, later.mpr ⟨legible, all⟩⟩
      · refine iff_of_false (fun ⟨slots', both, read⟩ => free both.1) fun ⟨_, short, _⟩ => free ?_
        exact fun slot member own => free_of_short named (short slot member) own

end Fill

/-- An object is read as a record if its fields have names and no declared name stands twice. -/
theorem slots?_object_iff (distinct : names.Nodup) {slots : List (Option Tree)} :
    slots? names (.object fields) = some slots ↔ Legible fields ∧
      (∀ name ∈ names, (valuesOf name fields).length ≤ 1) ∧
        slots = names.map fun name => (valuesOf name fields).head? := by
  have distinct' : ((names.map (·, (none : Option Tree))).map Prod.fst).Nodup := by
    rw [List.map_map]
    exact (List.map_id names).symm ▸ distinct
  have whole (name : String) : gathered fields (name, none) = valuesOf name fields := rfl
  rw [slots?, Option.map_eq_some_iff]
  simp only [ofFields_eq_some_iff distinct', List.forall_mem_map, List.map_map, whole]
  constructor
  · rintro ⟨filled, ⟨legible, short, rfl⟩, rfl⟩
    exact ⟨legible, short, by simp [whole]⟩
  · rintro ⟨legible, short, rfl⟩
    exact ⟨_, ⟨legible, short, rfl⟩, by simp [whole]⟩

/-! ### Fields in any order, among others -/

/-- A field of a name that is not declared. -/
def Foreign (names : List String) (field : List UInt8 × Tree) : Prop :=
  ∃ name, readText? field.1 = some name ∧ name ∉ names

/-- Some fields in any order, among fields of names that are not declared. -/
def Scattered (names : List String) (known fields : List (List UInt8 × Tree)) : Prop :=
  ∃ foreign, (∀ field ∈ foreign, Foreign names field) ∧ fields.Perm (known ++ foreign)

theorem Scattered.legible_iff (scattered : Scattered names known fields) :
    Legible fields ↔ Legible known := by
  obtain ⟨foreign, others, order⟩ := scattered
  unfold Legible
  simp only [order.mem_iff, List.forall_mem_append]
  refine and_iff_left_of_imp fun _ field member => ?_
  obtain ⟨name, named, -⟩ := others field member
  exact ⟨name, named⟩

/-- The values of a declared name are those of the known fields. -/
theorem Scattered.valuesOf_perm (scattered : Scattered names known fields) {name : String}
    (declared : name ∈ names) : (valuesOf name fields).Perm (valuesOf name known) := by
  obtain ⟨foreign, others, order⟩ := scattered
  have absent : valuesOf name foreign = [] := by
    refine List.filterMap_eq_nil_iff.mpr fun field member => if_neg fun own => ?_
    obtain ⟨other, named, undeclared⟩ := others field member
    rw [named, Option.some.injEq] at own
    exact undeclared (own ▸ declared)
  have values : (valuesOf name fields).Perm (valuesOf name (known ++ foreign)) := order.filterMap _
  rwa [valuesOf_append, absent, List.append_nil] at values

/-- The order of the fields and fields of other names make no difference. -/
theorem slots?_of_scattered (distinct : names.Nodup) (scattered : Scattered names known fields) :
    slots? names (.object fields) = slots? names (.object known) := by
  have short : (∀ name ∈ names, (valuesOf name fields).length ≤ 1) ↔
      ∀ name ∈ names, (valuesOf name known).length ≤ 1 :=
    forall₂_congr fun name declared => by rw [(scattered.valuesOf_perm declared).length_eq]
  ext slots
  rw [slots?_object_iff distinct, slots?_object_iff distinct, scattered.legible_iff, short]
  refine and_congr_right fun _ => and_congr_right fun one => ?_
  have heads : (names.map fun name => (valuesOf name fields).head?) =
      names.map fun name => (valuesOf name known).head? := by
    refine List.map_congr_left fun name declared => ?_
    -- One value can only be in one order.
    have order := scattered.valuesOf_perm declared
    have single := one name declared
    match own : valuesOf name known with
    | [] => rw [own, List.perm_nil] at order; rw [order]
    | [value] => rw [own, List.perm_singleton] at order; rw [order]
    | value :: other :: rest => rw [own] at single; simp at single
  rw [heads]

end GroupStore.Json.Record
