import GroupStore.Proofs.Bindings
import GroupStore.Proofs.World

/-!
# The statements of a schema and what is bound to them

The statements of a schema are derived from its settings, and the calls of its repository bind
lists of values to them.  Both follow one order of columns, so each value comes to its own column,
whatever the prefix.

* `Template.WellFormed` — the invariants of templates;
* `Schema.Fits` — values fit a statement, and each is found under its own column;
* `Schema.starts_on_memory` — a repository starts on a fresh memory session;
* `Schema.statements_fit_bindings` — the statements of a schema fit what is bound to them.
-/

namespace GroupStore

variable {α : Type}

/-! ### Well-formed templates -/

/-- The invariants of templates: no two columns have one name, the filter is a front part of the
primary key, only inserts have a time-to-live, and only conditional deletes have a condition. -/
structure Template.WellFormed (t : Template) : Prop where
  columns : t.layout.Distinct
  filter : t.filter <+: t.layout.keyNames
  ttl : t.ttlSeconds ≠ none → t.kind = .insert
  condition : t.condition ≠ none → t.kind = .conditionalDelete

namespace Schema

variable (s : Schema)

theorem template_wellFormed (kind : StatementKind) : (s.template kind).WellFormed where
  columns := by
    rw [template_layout]
    exact s.layout_distinct
  filter := by
    rw [template_layout, layout_keyNames]
    cases kind with
    | insert => exact List.nil_prefix
    | selectKeyAndId => exact List.prefix_append _ _
    | selectByKey | deleteByKey | conditionalDelete => exact List.prefix_refl _
  ttl := by cases kind <;> simp [template]
  condition := by cases kind <;> simp [template]

/-! ### Cells and their columns -/

/-- The prefix columns with their values. -/
def prefixBindings : List (Identifier × Value) :=
  s.settings.fixedPrefix.entries.map fun entry => (entry.column, entry.value)

/-- The columns of the primary key with the values that they have for a group. -/
def keyBindings (key : String) : List (Identifier × Value) :=
  s.prefixBindings ++ [(s.keyColumn, .text key)]

/-- The values can be bound to the statement of a kind as a session has prepared it, and then the
value of a column is the one in its cell. -/
def Fits (kind : StatementKind) (values : List Value) (cells : List (Identifier × Value)) : Prop :=
  ∀ native : String, ∃ b : Bound, Prepared.bind ⟨s.template kind, native⟩ values = .ok b ∧
    ∀ column value, b.value? column = some value ↔ (column, value) ∈ cells

theorem prefixBindings_columns : s.prefixBindings.map Prod.fst = s.prefixColumns := by
  simp [prefixBindings, prefixColumns, FixedPrefix.columns]

theorem prefixBindings_values : s.prefixBindings.map Prod.snd = s.prefixValues := by
  simp [prefixBindings, prefixValues, FixedPrefix.values]

theorem keyBindings_columns (key : String) : (s.keyBindings key).map Prod.fst = s.primaryKey := by
  rw [keyBindings, List.map_append, prefixBindings_columns]
  rfl

theorem keyBindings_values (key : String) :
    (s.keyBindings key).map Prod.snd = s.composeKey key := by
  rw [keyBindings, List.map_append, prefixBindings_values]
  rfl

variable {s}

/-- Cells whose columns are the parameters of a statement, in order, are bound by their values if
these have the right kinds. -/
theorem Fits.of_cells {kind : StatementKind} {cells : List (Identifier × Value)}
    {values : List Value} (columns : cells.map Prod.fst = (s.template kind).parameterColumns)
    (content : cells.map Prod.snd = values)
    (kinds : values.map Value.kind = (s.parameterSpecs kind).map ColumnSpec.kind) :
    s.Fits kind values cells := by
  intro native
  obtain ⟨b, bound, statement, valuesEq⟩ :=
    Prepared.exists_bind (p := ⟨s.template kind, native⟩) rfl kinds
  refine ⟨b, bound, fun column value => ?_⟩
  have template : b.template = s.template kind := by rw [Bound.template, statement]
  have paired : b.template.parameterColumns.zip b.values = cells := by
    rw [template, valuesEq]
    exact (List.zip_of_prod columns content).symm
  rw [Bound.value?, paired]
  refine Sorted.get?_eq_some_iff ?_
  rw [columns]
  exact s.parameterColumns_nodup kind

variable (s)

theorem fits_insert (key id : String) (payload : ByteArray) :
    s.Fits .insert (s.composeKey key ++ [.text id, .blob payload]) (s.keyBindings key ++
      [(s.exchangeIdColumn, .text id), (s.payloadColumn, .blob payload)]) := by
  refine .of_cells ?_ ?_ (s.insert_kinds key id payload)
  · rw [List.map_append, keyBindings_columns]
    rfl
  · rw [List.map_append, keyBindings_values]
    rfl

theorem fits_selectByKey (key : String) :
    s.Fits .selectByKey (s.composeKey key) (s.keyBindings key) := by
  refine .of_cells ?_ (s.keyBindings_values key) (s.composeKey_fits key)
  rw [keyBindings_columns]
  exact (List.append_nil _).symm

theorem fits_deleteByKey (key : String) :
    s.Fits .deleteByKey (s.composeKey key) (s.keyBindings key) := by
  refine .of_cells ?_ (s.keyBindings_values key) (s.composeKey_fits key)
  rw [keyBindings_columns]
  exact (List.append_nil _).symm

theorem fits_selectKeyAndId : s.Fits .selectKeyAndId s.prefixValues s.prefixBindings := by
  refine .of_cells ?_ s.prefixBindings_values s.prefixValues_fits
  rw [prefixBindings_columns]
  exact (List.append_nil _).symm

theorem fits_conditionalDelete (key id : String) :
    s.Fits .conditionalDelete (s.composeKey key ++ [.text id])
      (s.keyBindings key ++ [(s.exchangeIdColumn, .text id)]) := by
  refine .of_cells ?_ ?_ (s.conditionalDelete_kinds key id)
  · rw [List.map_append, keyBindings_columns]
    rfl
  · rw [List.map_append, keyBindings_values]
    rfl

/-! ### Fresh memory sessions -/

theorem prepared_by_empty (kind : StatementKind) :
    ∃ st, Memory.Store.empty.prepare (s.template kind) =
      (.ok ⟨s.template kind, (s.template kind).cql⟩, st) := by
  obtain ⟨st, answered, -⟩ :=
    Memory.Store.prepare_ok (s := s) Memory.Store.sound_empty (fun t found => by cases found) kind
  exact ⟨st, answered⟩

/-- A repository starts on a memory session that has just been opened in a world, whether it
borrows the session or is given it by a connector. -/
theorem starts_on_memory (codec : Codec α) (w : World) (clock : ClockSource) (ties : Ties)
    {source : Source Handle} (member : source ∈ [.owned, .borrowed (w.openMemory clock).1])
    (fixed : ties.connector = .fixed (w.openMemory clock).1) :
    ∃ running w', (w.openMemory clock).2.run ties (Repository.start ⟨s, codec, source⟩) =
      (.ok running, w') ∧ running.Faithful := by
  let r : Repository Handle α := ⟨s, codec, source⟩
  have opened : (w.openMemory clock).2.memories[w.memories.length]? = some ⟨clock, .empty⟩ := by
    simp [World.openMemory]
  have own : ∀ other, r.source = .borrowed other → other = .memory w.memories.length := by
    intro other borrowed
    simp only [List.mem_cons, List.not_mem_nil, or_false] at member
    rcases member with rfl | rfl
    · cases borrowed
    · cases borrowed
      rfl
  obtain ⟨answerEq, -, -⟩ := World.run_on_memory opened fixed (r.start_on own)
  obtain ⟨running, moment, alone⟩ := (Memory.start_iff (r := r) (.memory w.memories.length)
    ((w.openMemory clock).2.reading clock) Memory.Store.sound_empty).mpr fun t found => by
      cases found
  rw [alone] at answerEq
  exact ⟨running, _, Prod.ext answerEq rfl,
    (Memory.start_leaves Memory.Store.sound_empty alone).2.1⟩

/-- The statements of a schema, whatever its prefix, fit what is bound to them.  Each keeps the
invariants of templates and is accepted by a fresh memory session, on which a repository therefore
starts.  The values that the calls bind are accepted, and each is found under its own column. -/
theorem statements_fit_bindings :
    (∀ t ∈ s.templates, t.WellFormed ∧
      ∃ st, Memory.Store.empty.prepare t = (.ok ⟨t, t.cql⟩, st)) ∧
    (∀ (codec : Codec α) (w : World) (clock : ClockSource) (sink : Audit.Sink),
      ∀ source ∈ [Source.owned, .borrowed (w.openMemory clock).1], ∃ running w',
        (w.openMemory clock).2.run ⟨.fixed (w.openMemory clock).1, clock, sink⟩
          (Repository.start ⟨s, codec, source⟩) = (.ok running, w') ∧ running.Faithful) ∧
    ∀ (key id : String) (payload : ByteArray),
      s.Fits .insert (s.composeKey key ++ [.text id, .blob payload])
        (s.keyBindings key ++ [(s.exchangeIdColumn, .text id), (s.payloadColumn, .blob payload)]) ∧
      s.Fits .selectByKey (s.composeKey key) (s.keyBindings key) ∧
      s.Fits .deleteByKey (s.composeKey key) (s.keyBindings key) ∧
      s.Fits .selectKeyAndId s.prefixValues s.prefixBindings ∧
      s.Fits .conditionalDelete (s.composeKey key ++ [.text id])
        (s.keyBindings key ++ [(s.exchangeIdColumn, .text id)]) := by
  refine ⟨fun t member => ?_, fun codec w clock sink source member => ?_, fun key id payload => ?_⟩
  · obtain ⟨kind, -, rfl⟩ := List.mem_map.mp member
    exact ⟨s.template_wellFormed kind, s.prepared_by_empty kind⟩
  · exact s.starts_on_memory codec w clock _ member rfl
  · exact ⟨s.fits_insert key id payload, s.fits_selectByKey key, s.fits_deleteByKey key,
      s.fits_selectKeyAndId, s.fits_conditionalDelete key id⟩

end Schema

end GroupStore
