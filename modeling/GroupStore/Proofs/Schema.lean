import Mathlib.Data.List.Nodup
import GroupStore.Proofs.Sorted
import GroupStore.Statement.Repertoire
import GroupStore.Session

/-!
# The columns of a schema and the values that its statements bind

No column of a schema serves twice, so a column name finds its column and a bound value is found
under the name of its column.  What may be bound to a statement is decided by the kinds of its
parameter columns.

* `Layout.Distinct` — no two columns of a layout have one name; then each is found under its own;
* `Settings.check_eq_ok_iff` — what validation excludes, `Schema.columns_nodup` for a schema;
* `Schema.accept_iff` — values are admitted iff their kinds are those of the parameters;
* `Schema.FitsKey` — values that can be a full primary key, `exists_group` splits them;
* `Schema.insert_values` and the like — the values bound to each of the five statements.
-/

namespace GroupStore

/-- A computation of two steps succeeds iff both steps do. -/
theorem bind_eq_ok_iff {ε α β : Type} {x : Except ε α} {g : α → Except ε β} {y : β} :
    (x >>= g) = .ok y ↔ ∃ a, x = .ok a ∧ g a = .ok y := by
  cases x with
  | error e => simp [bind, Except.bind]
  | ok a => exact ⟨fun rest => ⟨a, rfl, rest⟩, fun ⟨_, okEq, rest⟩ => Except.ok.inj okEq ▸ rest⟩

theorem map_eq_ok_iff {ε α β : Type} {x : Except ε α} {g : α → β} {y : β} :
    x.map g = .ok y ↔ ∃ a, x = .ok a ∧ g a = y := by
  cases x <;> simp [Except.map]

theorem mapError_eq_ok_iff {ε δ α : Type} {x : Except ε α} {g : ε → δ} {a : α} :
    x.mapError g = .ok a ↔ x = .ok a := by
  cases x with
  | error e => exact iff_of_false nofun nofun
  | ok b =>
    exact ⟨fun mappedIs => congrArg _ (Except.ok.inj mappedIs),
      fun okEq => congrArg _ (Except.ok.inj okEq)⟩

/-! ### Distinct columns -/

theorem firstRepeat?_eq_none_iff {α : Type} [DecidableEq α] (seen l : List α) :
    firstRepeat? seen l = none ↔ l.Nodup ∧ ∀ x ∈ l, x ∉ seen := by
  induction l generalizing seen with
  | nil => simp [firstRepeat?]
  | cons x rest ih =>
    rw [firstRepeat?]
    by_cases repeated : x ∈ seen
    · simp [repeated]
    · rw [if_neg repeated, ih, List.nodup_cons]
      constructor
      · rintro ⟨distinct, fresh⟩
        refine ⟨⟨fun later => fresh x later List.mem_cons_self, distinct⟩, fun y found => ?_⟩
        rcases List.mem_cons.mp found with rfl | later
        · exact repeated
        · exact fun old => fresh y later (List.mem_cons_of_mem _ old)
      · rintro ⟨⟨first, distinct⟩, fresh⟩
        refine ⟨distinct, fun y later old => ?_⟩
        rcases List.mem_cons.mp old with rfl | seen
        · exact first later
        · exact fresh y (List.mem_cons_of_mem _ later) seen

/-- Two names with one text are one name. -/
theorem Identifier.eq_of_text {a b : Identifier} (h : a.text = b.text) : a = b := by
  cases a
  cases b
  cases h
  rfl

theorem Identifier.text_injective : Function.Injective Identifier.text :=
  fun _ _ => Identifier.eq_of_text

theorem Identifier.text_ne_empty (name : Identifier) : name.text ≠ "" := by
  intro empty
  have plain := name.plain
  rw [empty] at plain
  cases plain

/-- Any character of a name may stand inside a name. -/
theorem Identifier.continues_of_mem (name : Identifier) :
    ∀ c ∈ name.text.toList, Identifier.continues c = true := by
  have plain := name.plain
  cases chars : name.text.toList with
  | nil => exact fun _ member => absurd member List.not_mem_nil
  | cons first rest =>
    rw [chars, Identifier.shaped, Bool.and_eq_true] at plain
    intro c member
    rcases List.mem_cons.mp member with rfl | later
    · obtain ⟨letter, -⟩ := plain
      simp only [Identifier.begins, Bool.or_eq_true] at letter
      simp only [Identifier.continues, Bool.or_eq_true, Char.isAlphanum]
      exact letter.imp .inl id
    · exact List.all_eq_true.mp plain.2 c later

/-- Values that have the kinds of columns have them one by one. -/
theorem kind_of_mem_zip {specs : List ColumnSpec} {values : List Value}
    (kinds : values.map Value.kind = specs.map ColumnSpec.kind) {spec : ColumnSpec} {value : Value}
    (found : (spec, value) ∈ specs.zip values) : value.kind = spec.kind := by
  induction specs generalizing values with
  | nil => simp at found
  | cons first rest ih =>
    obtain ⟨v, vs, rfl, kind, kindsRest⟩ := List.map_eq_cons_iff.mp kinds
    rcases List.mem_cons.mp found with pairEq | later
    · obtain ⟨rfl, rfl⟩ := Prod.mk.inj pairEq
      exact kind
    · exact ih kindsRest later

/-! ### Distinct columns of a layout -/

namespace Layout

variable {l : Layout}

/-- No two columns have one name. -/
def Distinct (l : Layout) : Prop := (l.columns.map ColumnSpec.name).Nodup

theorem of_column?_eq_some {name : Identifier} {spec : ColumnSpec}
    (found : l.column? name = some spec) : spec ∈ l.columns ∧ spec.name = name :=
  ⟨List.mem_of_find?_eq_some found, of_decide_eq_true
    (List.find?_some (p := fun spec : ColumnSpec => decide (spec.name = name)) found)⟩

theorem Distinct.names (distinct : l.Distinct) :
    (l.keyNames ++ l.regular.map ColumnSpec.name).Nodup := by
  rw [keyNames, ← List.map_append]
  exact distinct

/-- A column is found under its name. -/
theorem Distinct.column?_of_mem (distinct : l.Distinct) {spec : ColumnSpec}
    (member : spec ∈ l.columns) : l.column? spec.name = some spec := by
  cases found : l.column? spec.name with
  | none =>
    have absent := List.find?_eq_none.mp found spec member
    simp at absent
  | some other =>
    obtain ⟨inside, nameEq⟩ := of_column?_eq_some found
    rw [List.inj_on_of_nodup_map distinct inside member nameEq]

end Layout

/-! ### Checked settings -/

theorem FixedPrefix.columns_nodup (p : FixedPrefix) : p.columns.Nodup :=
  ((firstRepeat?_eq_none_iff _ _).mp p.distinct).1

/-- The columns of settings in the order of statements. -/
def Settings.allColumns (s : Settings) : List Identifier := s.fixedPrefix.columns ++ s.ownColumns

/-- Settings pass their check if no column serves twice and the time-to-live is in range. -/
theorem Settings.check_eq_ok_iff {s : Settings} : s.check = .ok () ↔ s.allColumns.Nodup ∧
    ∀ seconds, s.ttlSeconds = some seconds → 1 ≤ seconds ∧ seconds ≤ maxTtlSeconds := by
  have columns : firstRepeat? s.fixedPrefix.columns s.ownColumns = none ↔ s.allColumns.Nodup := by
    rw [firstRepeat?_eq_none_iff, allColumns, List.nodup_append]
    constructor
    · rintro ⟨own, fresh⟩
      exact ⟨s.fixedPrefix.columns_nodup, own, fun a old b new equal => fresh b new (equal ▸ old)⟩
    · rintro ⟨-, own, apart⟩
      exact ⟨own, fun x new old => apart x old x new rfl⟩
  have lifetime : s.badTtl? = none ↔
      ∀ seconds, s.ttlSeconds = some seconds → 1 ≤ seconds ∧ seconds ≤ maxTtlSeconds := by
    unfold badTtl?
    cases s.ttlSeconds with
    | none => simp
    | some seconds =>
      simp [Option.filter_some]
      omega
  rw [← columns, ← lifetime, check]
  cases firstRepeat? s.fixedPrefix.columns s.ownColumns with
  | some column => simp
  | none => cases s.badTtl? <;> simp

/-- Settings make the schema that has them. -/
theorem Schema.ofSettings_eq_ok_iff {settings : Settings} {schema : Schema} :
    Schema.ofSettings settings = .ok schema ↔ schema.settings = settings := by
  unfold Schema.ofSettings
  constructor
  · intro made
    split at made <;> cases made
    rfl
  · rintro rfl
    split
    · rfl
    · rename_i refused
      cases schema.checked.symm.trans refused

namespace Schema

variable (s : Schema)

theorem prefixColumns_nodup : s.prefixColumns.Nodup := s.settings.fixedPrefix.columns_nodup

theorem columns_eq : s.columns = s.settings.allColumns := by
  simp [columns, primaryKey, Settings.allColumns, Settings.ownColumns, prefixColumns, keyColumn,
    exchangeIdColumn, payloadColumn]

/-- No column of a schema serves twice. -/
theorem columns_nodup : s.columns.Nodup := by
  rw [columns_eq]
  exact (Settings.check_eq_ok_iff.mp s.checked).1

/-- A time-to-live is at least a second. -/
theorem ttl_pos {seconds : Nat} (h : s.settings.ttlSeconds = some seconds) : 0 < seconds :=
  ((Settings.check_eq_ok_iff.mp s.checked).2 seconds h).1

/-! ### The layout -/

/-- The typed columns of the fixed prefix. -/
def prefixSpecs : List ColumnSpec :=
  s.settings.fixedPrefix.entries.map fun entry => ⟨entry.column, entry.value.kind⟩

theorem prefixSpecs_names : s.prefixSpecs.map ColumnSpec.name = s.prefixColumns := by
  simp [prefixSpecs, prefixColumns, FixedPrefix.columns]

theorem layout_primaryKey : s.layout.primaryKey = s.prefixSpecs ++ [⟨s.keyColumn, .text⟩] := rfl

theorem layout_keyNames : s.layout.keyNames = s.primaryKey := by
  simp [Layout.keyNames, layout_primaryKey, prefixSpecs_names, primaryKey]

theorem layout_columns_names : s.layout.columns.map ColumnSpec.name = s.columns := by
  have key := s.layout_keyNames
  rw [Layout.keyNames] at key
  rw [Layout.columns, List.map_append, key]
  rfl

theorem layout_distinct : s.layout.Distinct := by
  rw [Layout.Distinct, layout_columns_names]
  exact s.columns_nodup

/-- A column is found under its name. -/
theorem column?_of_mem {spec : ColumnSpec} (h : spec ∈ s.layout.columns) :
    s.layout.column? spec.name = some spec :=
  s.layout_distinct.column?_of_mem h

/-! ### Keys -/

/-- Values of the kinds of the primary-key columns. -/
def FitsKey (key : List Value) : Prop :=
  key.map Value.kind = s.layout.primaryKey.map ColumnSpec.kind

/-- Values of the kinds of the prefix columns. -/
def FitsPrefix (fixed : List Value) : Prop :=
  fixed.map Value.kind = s.prefixSpecs.map ColumnSpec.kind

variable {s}

theorem FitsKey.length {key : List Value} (h : s.FitsKey key) :
    key.length = s.layout.primaryKey.length := by
  simpa using congrArg List.length h

theorem FitsPrefix.length {fixed : List Value} (h : s.FitsPrefix fixed) :
    fixed.length = s.prefixSpecs.length := by
  simpa using congrArg List.length h

/-- A list of values whose last kind is text ends in a text. -/
theorem exists_text_of_kinds {values : List Value} {kinds : List ColumnKind}
    (h : values.map Value.kind = kinds ++ [.text]) :
    ∃ front group, values = front ++ [.text group] ∧ front.map Value.kind = kinds := by
  obtain ⟨front, last, rfl, hfront, hlast⟩ := List.map_eq_append_iff.mp h
  obtain ⟨value, rfl, kind⟩ := List.map_eq_singleton_iff.mp hlast
  cases value with
  | text group => exact ⟨front, group, rfl, hfront⟩
  | blob bytes => cases kind
  | boolean b => cases kind

/-- A full primary key is a prefix and a group. -/
theorem FitsKey.exists_group {key : List Value} (h : s.FitsKey key) :
    ∃ fixed group, key = fixed ++ [.text group] ∧ s.FitsPrefix fixed := by
  rw [FitsKey, layout_primaryKey, List.map_append] at h
  exact exists_text_of_kinds h

theorem FitsPrefix.fitsKey {fixed : List Value} (h : s.FitsPrefix fixed) (group : String) :
    s.FitsKey (fixed ++ [.text group]) := by
  unfold FitsKey
  rw [layout_primaryKey, List.map_append, List.map_append, h]
  rfl

variable (s)

theorem prefixValues_fits : s.FitsPrefix s.prefixValues := by
  simp [FitsPrefix, prefixSpecs, prefixValues, FixedPrefix.values]

theorem composeKey_fits (group : String) : s.FitsKey (s.composeKey group) :=
  s.prefixValues_fits.fitsKey group

/-- Different groups have different keys. -/
theorem composeKey_injective {g g' : String} (h : s.composeKey g = s.composeKey g') : g = g' := by
  simpa [composeKey] using h

/-! ### Admitted values -/

/-- The typed parameter columns of a statement. -/
def parameterSpecs : StatementKind → List ColumnSpec
  | .insert => s.layout.columns
  | .selectByKey | .deleteByKey => s.layout.primaryKey
  | .selectKeyAndId => s.prefixSpecs
  | .conditionalDelete => s.layout.primaryKey ++ [⟨s.exchangeIdColumn, .text⟩]

theorem template_kind (kind : StatementKind) : (s.template kind).kind = kind := by
  cases kind <;> rfl

theorem template_layout (kind : StatementKind) : (s.template kind).layout = s.layout := by
  cases kind <;> rfl

theorem parameterColumns_eq (kind : StatementKind) :
    (s.template kind).parameterColumns = (s.parameterSpecs kind).map ColumnSpec.name := by
  have key := s.layout_keyNames
  rw [Layout.keyNames] at key
  cases kind with
  | insert => exact s.layout_columns_names.symm
  | selectByKey =>
    rw [parameterSpecs, key]
    simp [template, Template.parameterColumns]
  | deleteByKey =>
    rw [parameterSpecs, key]
    simp [template, Template.parameterColumns]
  | selectKeyAndId =>
    rw [parameterSpecs, prefixSpecs_names]
    simp [template, Template.parameterColumns]
  | conditionalDelete =>
    rw [parameterSpecs, List.map_append, key]
    simp [template, Template.parameterColumns]

theorem parameterSpecs_subset (kind : StatementKind) :
    ∀ spec ∈ s.parameterSpecs kind, spec ∈ s.layout.columns := by
  intro spec found
  have regular : s.layout.regular = [⟨s.exchangeIdColumn, .text⟩, ⟨s.payloadColumn, .blob⟩] := rfl
  rw [Layout.columns, layout_primaryKey, regular]
  cases kind with
  | insert => exact found
  | selectByKey => exact List.mem_append_left _ found
  | deleteByKey => exact List.mem_append_left _ found
  | selectKeyAndId => exact List.mem_append_left _ (List.mem_append_left _ found)
  | conditionalDelete =>
    rcases List.mem_append.mp found with key | own
    · exact List.mem_append_left _ key
    · rw [List.mem_singleton.mp own]
      simp

theorem parameterColumns_nodup (kind : StatementKind) :
    (s.template kind).parameterColumns.Nodup := by
  have all := s.columns_nodup
  have front : s.columns = s.primaryKey ++ [s.exchangeIdColumn] ++ [s.payloadColumn] := by
    simp [columns]
  rw [front, List.nodup_append] at all
  have key := (List.nodup_append.mp all.1).1
  cases kind with
  | insert => exact s.columns_nodup
  | selectByKey => simpa [template, Template.parameterColumns] using key
  | deleteByKey => simpa [template, Template.parameterColumns] using key
  | selectKeyAndId => simpa [template, Template.parameterColumns] using s.prefixColumns_nodup
  | conditionalDelete => simpa [template, Template.parameterColumns] using all.1

theorem accept_zip_iff {l : Layout} {specs : List ColumnSpec} {values : List Value}
    (known : ∀ spec ∈ specs, l.column? spec.name = some spec)
    (lengthEq : specs.length = values.length) :
    l.accept ((specs.map ColumnSpec.name).zip values) = .ok () ↔
      values.map Value.kind = specs.map ColumnSpec.kind := by
  induction specs generalizing values with
  | nil =>
    have empty : values = [] := List.length_eq_zero_iff.mp lengthEq.symm
    simp [empty, Layout.accept]
  | cons spec rest ih =>
    cases values with
    | nil => simp at lengthEq
    | cons value others =>
      rw [List.map_cons, List.zip_cons_cons, Layout.accept, known spec List.mem_cons_self]
      have later := @ih others (fun x hx => known x (List.mem_cons_of_mem _ hx))
        (by simpa using lengthEq)
      by_cases fits : spec.kind = value.kind
      · simp [fits, later]
      · simp [fits, Ne.symm fits]

/-- Values can be bound to a statement iff their kinds are those of its parameters. -/
theorem accept_iff (kind : StatementKind) (values : List Value) :
    (s.template kind).accept values = .ok () ↔
      values.map Value.kind = (s.parameterSpecs kind).map ColumnSpec.kind := by
  unfold Template.accept
  rw [template_layout, parameterColumns_eq, List.length_map]
  by_cases lengthEq : (s.parameterSpecs kind).length = values.length
  · rw [if_pos lengthEq]
    exact accept_zip_iff
      (fun spec found => s.column?_of_mem (s.parameterSpecs_subset kind spec found))
      lengthEq
  · rw [if_neg lengthEq]
    refine iff_of_false (by simp) fun kinds => lengthEq ?_
    simpa using (congrArg List.length kinds).symm

end Schema

/-! ### The values of bound statements -/

namespace Bound

variable {s : Schema} {b : Bound}

/-- The kinds of what is bound to a statement of a schema. -/
theorem kinds_eq {kind : StatementKind} (h : b.template = s.template kind) :
    b.values.map Value.kind = (s.parameterSpecs kind).map ColumnSpec.kind := by
  have admitted := b.admitted
  rw [show b.statement.template = b.template from rfl, h] at admitted
  exact (s.accept_iff kind b.values).mp admitted

/-- An insert binds a key, an exchange id and a payload. -/
theorem insert_values (h : b.template = s.template .insert) :
    ∃ key id payload, b.values = key ++ [.text id, .blob payload] ∧ s.FitsKey key := by
  have kinds := kinds_eq h
  rw [Schema.parameterSpecs, Layout.columns, List.map_append] at kinds
  obtain ⟨key, own, split, fits, ownKinds⟩ := List.map_eq_append_iff.mp kinds
  obtain ⟨id, rest, rfl, idKind, restKinds⟩ := List.map_eq_cons_iff.mp ownKinds
  obtain ⟨payload, rfl, payloadKind⟩ := List.map_eq_singleton_iff.mp restKinds
  cases id <;> cases idKind
  cases payload <;> cases payloadKind
  exact ⟨key, _, _, split, fits⟩

theorem selectByKey_values (h : b.template = s.template .selectByKey) : s.FitsKey b.values :=
  kinds_eq h

theorem deleteByKey_values (h : b.template = s.template .deleteByKey) : s.FitsKey b.values :=
  kinds_eq h

theorem selectKeyAndId_values (h : b.template = s.template .selectKeyAndId) :
    s.FitsPrefix b.values :=
  kinds_eq h

/-- A conditional delete binds a key and an exchange id. -/
theorem conditionalDelete_values (h : b.template = s.template .conditionalDelete) :
    ∃ key id, b.values = key ++ [.text id] ∧ s.FitsKey key := by
  have kinds := kinds_eq h
  rw [Schema.parameterSpecs, List.map_append] at kinds
  exact Schema.exists_text_of_kinds kinds

/-- A value is found under the name of its parameter. -/
theorem value?_of_mem {kind : StatementKind} (h : b.template = s.template kind)
    {column : Identifier} {value : Value}
    (found : (column, value) ∈ (s.template kind).parameterColumns.zip b.values) :
    b.value? column = some value := by
  have lengthEq : (s.template kind).parameterColumns.length = b.values.length := by
    have kinds := congrArg List.length (kinds_eq h)
    rw [List.length_map, List.length_map] at kinds
    rw [Schema.parameterColumns_eq, List.length_map, kinds]
  unfold Bound.value?
  rw [h]
  refine Sorted.get?_of_mem ?_ found
  rw [List.map_fst_zip (Nat.le_of_eq lengthEq)]
  exact s.parameterColumns_nodup kind

end Bound

end GroupStore
