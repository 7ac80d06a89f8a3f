import GroupStore.Proofs.Schema

/-!
# What may be bound to a template

A template may name any columns, more than once and in any order.  Values may be bound to it exactly
if there is one for each of its parameter columns, of the kind that the layout has for the name.

* `Template.accept_eq_ok_iff` — which values may be bound;
* `Bound.exists_column` — a bound value has the kind of a column of the layout;
* `Template.samples` — values that may be bound whenever any may.
-/

namespace GroupStore

namespace Layout

variable {l : Layout}

theorem accept_eq_ok_iff {entries : List (Identifier × Value)} :
    l.accept entries = .ok () ↔
      ∀ e ∈ entries, ∃ spec, l.column? e.1 = some spec ∧ spec.kind = e.2.kind := by
  induction entries with
  | nil => simp [accept]
  | cons entry rest ih =>
    rw [accept, List.forall_mem_cons]
    cases found : l.column? entry.1 with
    | none => simp
    | some spec =>
      by_cases fits : spec.kind = entry.2.kind
      · simp [fits, ih]
      · simp [fits]

end Layout

/-- An insert binds values to the columns of its projection. -/
theorem Template.parameterColumns_insert (t : Template) (insert : t.kind = .insert) :
    t.parameterColumns = t.projection := by
  rw [parameterColumns, insert]

/-- Every other statement binds them to its filter, and to its condition if it has one. -/
theorem Template.parameterColumns_conditional (t : Template) (other : t.kind ≠ .insert) :
    t.parameterColumns = t.filter ++ t.condition.toList := by
  unfold parameterColumns
  split
  · contradiction
  · rfl

/-- Values may be bound if there is one of the right kind for each parameter column. -/
theorem Template.accept_eq_ok_iff {t : Template} {values : List Value} :
    t.accept values = .ok () ↔ t.parameterColumns.length = values.length ∧
      ∀ e ∈ t.parameterColumns.zip values,
        ∃ spec, t.layout.column? e.1 = some spec ∧ spec.kind = e.2.kind := by
  rw [accept]
  by_cases lengthEq : t.parameterColumns.length = values.length
  · rw [if_pos lengthEq, Layout.accept_eq_ok_iff]
    simp only [lengthEq, true_and]
  · simp [lengthEq]

/-- In a list of the same length each entry has a partner. -/
theorem exists_mem_zip {α β : Type} {xs : List α} {ys : List β} (lengthEq : xs.length = ys.length)
    {x : α} (member : x ∈ xs) : ∃ y, (x, y) ∈ xs.zip ys := by
  obtain ⟨i, inside, rfl⟩ := List.mem_iff_getElem.mp member
  have partner : i < ys.length := lengthEq ▸ inside
  exact ⟨ys[i], List.mem_iff_getElem.mpr
    ⟨i, List.length_zip ▸ Nat.lt_min.mpr ⟨inside, partner⟩, by simp⟩⟩

/-- If anything may be bound to a template, its parameter columns are columns of the layout. -/
theorem Template.exists_column {t : Template} {values : List Value}
    (bindable : t.accept values = .ok ()) {name : Identifier} (member : name ∈ t.parameterColumns) :
    ∃ spec, t.layout.column? name = some spec := by
  obtain ⟨lengthEq, fits⟩ := accept_eq_ok_iff.mp bindable
  obtain ⟨value, paired⟩ := exists_mem_zip lengthEq member
  obtain ⟨spec, found, -⟩ := fits _ paired
  exact ⟨spec, found⟩

namespace Bound

variable (b : Bound)

theorem length_values : b.template.parameterColumns.length = b.values.length :=
  (Template.accept_eq_ok_iff.mp b.admitted).1

theorem length_projection (insert : b.template.kind = .insert) :
    b.template.projection.length = b.values.length := by
  rw [← b.template.parameterColumns_insert insert, b.length_values]

theorem length_filter_le (other : b.template.kind ≠ .insert) :
    b.template.filter.length ≤ b.values.length := by
  rw [← b.length_values, b.template.parameterColumns_conditional other, List.length_append]
  exact Nat.le_add_right _ _

/-- A bound value has the kind of the column to which it is bound. -/
theorem exists_column {name : Identifier} {value : Value}
    (bound : (name, value) ∈ b.template.parameterColumns.zip b.values) :
    ∃ spec, b.template.layout.column? name = some spec ∧ spec.kind = value.kind :=
  (Template.accept_eq_ok_iff.mp b.admitted).2 (name, value) bound

end Bound

/-! ### Samples -/

/-- A value of a kind. -/
def ColumnKind.sample : ColumnKind → Value
  | text => .text ""
  | blob => .blob ByteArray.empty
  | boolean => .boolean false

/-- Another value of a kind. -/
def ColumnKind.otherSample : ColumnKind → Value
  | text => .text "other"
  | blob => .blob (ByteArray.mk #[0])
  | boolean => .boolean true

theorem ColumnKind.kind_sample (kind : ColumnKind) : kind.sample.kind = kind := by
  cases kind <;> rfl

theorem ColumnKind.kind_otherSample (kind : ColumnKind) : kind.otherSample.kind = kind := by
  cases kind <;> rfl

theorem ColumnKind.sample_ne_otherSample (kind other : ColumnKind) :
    kind.sample ≠ other.otherSample := by
  cases kind <;> cases other <;> decide +kernel

/-- The sample of the kind that a layout has for a name. -/
def Layout.sample (l : Layout) (name : Identifier) : Value :=
  ((l.column? name).map ColumnSpec.kind).getD .text |>.sample

/-- A sample for each parameter column. -/
def Template.samples (t : Template) : List Value := t.parameterColumns.map t.layout.sample

theorem Layout.sample_of_column? {l : Layout} {name : Identifier} {spec : ColumnSpec}
    (found : l.column? name = some spec) : l.sample name = spec.kind.sample := by
  rw [sample, found]
  rfl

theorem Template.zip_samples (t : Template) : t.parameterColumns.zip t.samples =
    t.parameterColumns.map fun name => (name, t.layout.sample name) :=
  List.map_prod_left_eq_zip.symm

/-- If the parameter columns are columns of the layout, the samples may be bound. -/
theorem Template.accept_samples_of_known {t : Template}
    (known : ∀ name ∈ t.parameterColumns, ∃ spec, t.layout.column? name = some spec) :
    t.accept t.samples = .ok () := by
  refine accept_eq_ok_iff.mpr ⟨by simp [samples], fun e member => ?_⟩
  rw [zip_samples] at member
  obtain ⟨name, inside, rfl⟩ := List.mem_map.mp member
  obtain ⟨spec, found⟩ := known name inside
  exact ⟨spec, found, by rw [Layout.sample_of_column? found, ColumnKind.kind_sample]⟩

/-- If anything may be bound to a template, the samples may. -/
theorem Template.accept_samples {t : Template} {values : List Value}
    (bindable : t.accept values = .ok ()) : t.accept t.samples = .ok () :=
  accept_samples_of_known fun _ member => exists_column bindable member

end GroupStore
